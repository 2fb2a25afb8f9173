import GovernedAutonomy.HttpApi
import GovernedAutonomy.Oidc
import GovernedAutonomy.Protocol.Answers
import GovernedAutonomy.Python.Characters

namespace GovernedAutonomy

open Python Protocol

-- str.isprintable of one character
structure PrintTable where
  isPrintable : CodePoint → Bool
  plain : ∀ p, isPrintable p = true → isSurrogate p = false

structure OperatorKeyRow where
  keyId : Str
  operatorId : Str
  tokenHash : Str
  createdAt : Str
  revoked : Bool
deriving DecidableEq

-- key_id is the primary key
structure OperatorKeyTable where
  rows : List OperatorKeyRow
  distinct : (rows.map OperatorKeyRow.keyId).Nodup

def isTokenChar (p : CodePoint) : Bool :=
  Pattern.isLetter p || Pattern.isAsciiDigit p || Pattern.isOneOf "-_" p

-- what uuid4, token_urlsafe and the clock make for a call of create
structure MadeKey where
  keyId : Str
  secret : Str
  createdAt : Str
  keyId_ne : keyId ≠ []
  secret_ne : secret ≠ []
  keyId_chars : keyId.all isTokenChar = true
  secret_chars : secret.all isTokenChar = true

def MadeKey.token (made : MadeKey) : Str :=
  lit "gasop_" ++ (made.keyId ++ ofChar '.' :: made.secret)

-- what sqlite3 raises before a statement has read the table, or when it would write it
inductive OperatorKeyFault where
  | opening (e : Exc)
  | writing (e : Exc)

inductive OperatorKeyCall where
  | create (operatorId : PyVal) (made : MadeKey) (fault : Option OperatorKeyFault)
  | authenticate (token : PyVal) (fault : Option OperatorKeyFault)
  | revoke (keyId : Str) (fault : Option OperatorKeyFault)
  | listKeys (fault : Option OperatorKeyFault)

-- the dictionary of public_dict
structure OperatorKeyEntry where
  keyId : Str
  operatorId : Str
  createdAt : Str
  revoked : Bool

inductive OperatorKeyAnswer where
  | created (keyId operatorId token : Str)
  | identified (key : Option OperatorKeyRow)
  | revoked
  | listed (keys : List OperatorKeyEntry)

def OperatorKeyRow.publicDict (row : OperatorKeyRow) : OperatorKeyEntry :=
  ⟨row.keyId, row.operatorId, row.createdAt, row.revoked⟩

def invalidOperatorId : Exc := .valueError "operator_id must contain 1-256 printable characters"

-- token.encode("ascii"), hashed
def asciiHash (P : Primitives) (token : Str) : Option Str :=
  if isAscii token then (encode token).map (hexdigest P) else none

-- the key id of a token that has one and a secret
def tokenKeyId (token : Str) : Option Str :=
  if startsWith token "gasop_" then
    let rest := token.drop (lit "gasop_").length
    let keyId := rest.takeWhile (· ≠ ofChar '.')
    match rest.drop keyId.length with
    | _ :: _ :: _ => if keyId = [] then none else some keyId
    | _ => none
  else none

namespace OperatorKeyTable

def empty : OperatorKeyTable := ⟨[], List.nodup_nil⟩

variable (P : Primitives) (T : PrintTable) (t : OperatorKeyTable)

def find (keyId : Str) : Option OperatorKeyRow :=
  t.rows.find? (fun row => decide (row.keyId = keyId))

def insert (row : OperatorKeyRow) (h : row.keyId ∉ t.rows.map OperatorKeyRow.keyId) :
    OperatorKeyTable where
  rows := t.rows ++ [row]
  distinct := by
    rw [List.map_append, List.nodup_append]
    refine ⟨t.distinct, List.nodup_singleton _, ?_⟩
    intro keyId hkeyId other hother heq
    obtain rfl := List.mem_singleton.mp hother
    exact h (heq ▸ hkeyId)

def markRevoked (keyId : Str) : OperatorKeyTable where
  rows := t.rows.map (fun row => if row.keyId = keyId then { row with revoked := true } else row)
  distinct := by
    have hids : (t.rows.map (fun row =>
        if row.keyId = keyId then { row with revoked := true } else row)).map
          OperatorKeyRow.keyId = t.rows.map OperatorKeyRow.keyId := by
      rw [List.map_map]
      refine List.map_congr_left fun row _ => ?_
      simp only [Function.comp_apply]
      split <;> rfl
    rw [hids]
    exact t.distinct

-- the operator id that create stores
def operatorIdOf : PyVal → Result Str
  | .str s =>
      let operatorId := stripped s
      if operatorId = [] ∨ 256 < operatorId.length ∨ operatorId.all T.isPrintable = false then
        .error invalidOperatorId
      else .ok operatorId
  | _ => .error invalidOperatorId

def create (operatorId : PyVal) (made : MadeKey) (fault : Option OperatorKeyFault) :
    OperatorKeyTable × Result OperatorKeyAnswer :=
  match operatorIdOf T operatorId, asciiHash P made.token with
  | .error e, _ => (t, .error e)
  | .ok _, none => (t, .error (.builtin .unicodeEncodeError))
  | .ok operatorId, some tokenHash =>
      match fault with
      | some (.opening e) => (t, .error e)
      | some (.writing e) => (t, .error e)
      | none =>
          if h : made.keyId ∈ t.rows.map OperatorKeyRow.keyId then
            (t, .error (.builtin .integrityError))
          else
            (t.insert ⟨made.keyId, operatorId, tokenHash, made.createdAt, false⟩ h,
              .ok (.created made.keyId operatorId made.token))

-- the row that the hash of a token agrees with
def verify (keyId tokenHash : Str) : Option OperatorKeyRow :=
  match t.find keyId with
  | none => none
  | some row => if row.revoked = false ∧ tokenHash = row.tokenHash then some row else none

def authenticate (token : PyVal) (fault : Option OperatorKeyFault) : Result OperatorKeyAnswer :=
  match token with
  | .str token =>
      match tokenKeyId token, asciiHash P token with
      | some keyId, some tokenHash =>
          match fault with
          | some (.opening e) => .error e
          | some (.writing e) => .error e
          | none => .ok (.identified (t.verify keyId tokenHash))
      | _, _ => .ok (.identified none)
  | _ => .ok (.identified none)

def revoke (keyId : Str) (fault : Option OperatorKeyFault) :
    OperatorKeyTable × Result OperatorKeyAnswer :=
  match fault, encode keyId, t.find keyId with
  | some (.opening e), _, _ => (t, .error e)
  | _, none, _ => (t, .error (.builtin .unicodeEncodeError))
  | _, some _, none =>
      (t, .error (.custom "KeyError" false (lit "unknown operator key: " ++ keyId) .none))
  | fault, some _, some row =>
      if row.revoked then
        (t, .error (.valueError (lit "operator key is already revoked: " ++ keyId)))
      else
        match fault with
        | some (.writing e) => (t, .error e)
        | _ => (t.markRevoked keyId, .ok .revoked)

def listKeys (fault : Option OperatorKeyFault) : Result OperatorKeyAnswer :=
  match fault with
  | some (.opening e) => .error e
  | some (.writing e) => .error e
  | none => .ok (.listed ((t.rows.insertionSort (fun a b => a.keyId ≤ b.keyId)).map
      OperatorKeyRow.publicDict))

-- every store takes its turn on the shared database under BEGIN IMMEDIATE
def perform : OperatorKeyCall → OperatorKeyTable × Result OperatorKeyAnswer
  | .create operatorId made fault => t.create P T operatorId made fault
  | .authenticate token fault => (t, t.authenticate P token fault)
  | .revoke keyId fault => t.revoke keyId fault
  | .listKeys fault => (t, t.listKeys fault)

end OperatorKeyTable

section Tokens

variable {made : MadeKey}

theorem isTokenChar_dot : isTokenChar (ofChar '.') = false := by decide

theorem encode_of_isAscii {s : Str} (h : isAscii s = true) : (encode s).isSome = true := by
  rw [encode_isSome, List.all_eq_true]
  intro p hp
  have hp := of_decide_eq_true (List.all_eq_true.mp h p hp)
  rw [isSurrogate, decide_eq_false]
  · rfl
  · omega

theorem tokenKeyId_token (made : MadeKey) : tokenKeyId made.token = some made.keyId := by
  have hstart : startsWith made.token "gasop_" = true := startsWith_iff.mpr ⟨_, rfl⟩
  have htake : (made.keyId ++ ofChar '.' :: made.secret).takeWhile (· ≠ ofChar '.') =
      made.keyId := by
    rw [List.takeWhile_append_of_pos]
    · simp
    · intro p hp
      refine decide_eq_true ?_
      rintro rfl
      have := List.all_eq_true.mp made.keyId_chars _ hp
      rw [isTokenChar_dot] at this
      cases this
  obtain ⟨c, secret, hsecret⟩ := List.exists_cons_of_ne_nil made.secret_ne
  rw [tokenKeyId, if_pos hstart]
  simp only [MadeKey.token, List.drop_left]
  rw [htake, List.drop_left, hsecret]
  exact if_neg made.keyId_ne

end Tokens

-- what is said of a key for good when it is created
structure IssuedKey where
  keyId : Str
  operatorId : Str
  createdAt : Str

def OperatorKeyRow.issued (row : OperatorKeyRow) : IssuedKey :=
  ⟨row.keyId, row.operatorId, row.createdAt⟩

def OperatorKeyEntry.issued (entry : OperatorKeyEntry) : IssuedKey :=
  ⟨entry.keyId, entry.operatorId, entry.createdAt⟩

namespace OperatorKeyCall

-- a call of create returned the token of a key
def Issues (token : Str) (key : IssuedKey) (call : OperatorKeyCall)
    (answer : Result OperatorKeyAnswer) : Prop :=
  ∃ name made fault, call = .create name made fault ∧ made.createdAt = key.createdAt ∧
    answer = .ok (.created key.keyId key.operatorId token)

-- a call of revoke returned
def Revokes (keyId : Str) (call : OperatorKeyCall) (answer : Result OperatorKeyAnswer) : Prop :=
  ∃ fault, call = .revoke keyId fault ∧ answer = .ok .revoked

end OperatorKeyCall

namespace OperatorKeyTable

variable (P : Primitives) (T : PrintTable)

def served (calls : List OperatorKeyCall) : OperatorKeyTable :=
  Calls.after (perform P T) empty calls

def Issued (calls : List OperatorKeyCall) (token : Str) (key : IssuedKey) : Prop :=
  Calls.Happened (perform P T) empty calls (OperatorKeyCall.Issues token key)

def Revoked (calls : List OperatorKeyCall) (keyId : Str) : Prop :=
  Calls.Happened (perform P T) empty calls (OperatorKeyCall.Revokes keyId)

-- the row that a token was issued with
structure Stores (P : Primitives) (row : OperatorKeyRow) (token : Str) (key : IssuedKey) :
    Prop where
  issued : row.issued = key
  hash : asciiHash P token = some row.tokenHash
  keyId : tokenKeyId token = some key.keyId

structure Reflects (calls : List OperatorKeyCall) (t : OperatorKeyTable) : Prop where
  issued : ∀ row ∈ t.rows, ∃ token,
    Issued P T calls token row.issued ∧ Stores P row token row.issued
  stored : ∀ token key, Issued P T calls token key → ∃ row ∈ t.rows, Stores P row token key
  revoked : ∀ keyId, Revoked P T calls keyId ↔
    ∃ row ∈ t.rows, row.keyId = keyId ∧ row.revoked = true

-- what a call does to the table
inductive Effect (t : OperatorKeyTable) :
    OperatorKeyCall → OperatorKeyTable × Result OperatorKeyAnswer → Prop
  | created {name : PyVal} {made : MadeKey} {operatorId tokenHash : Str}
      (h : made.keyId ∉ t.rows.map OperatorKeyRow.keyId)
      (hhash : asciiHash P made.token = some tokenHash) :
      Effect t (.create name made none)
        (t.insert ⟨made.keyId, operatorId, tokenHash, made.createdAt, false⟩ h,
          .ok (.created made.keyId operatorId made.token))
  | revoked {keyId : Str} {fault : Option OperatorKeyFault} {row : OperatorKeyRow}
      (h : t.find keyId = some row) :
      Effect t (.revoke keyId fault) (t.markRevoked keyId, .ok .revoked)
  | kept {call : OperatorKeyCall} {answer : Result OperatorKeyAnswer}
      (hcreated : ∀ keyId operatorId token, answer ≠ .ok (.created keyId operatorId token))
      (hrevoked : answer ≠ .ok .revoked) : Effect t call (t, answer)

variable {P T} {t : OperatorKeyTable} {calls : List OperatorKeyCall} {keyId token : Str}
  {key : IssuedKey}

theorem kept_of_error {call : OperatorKeyCall} {e : Exc} : Effect P t call (t, .error e) :=
  .kept (by simp) (by simp)

theorem effect_create (name : PyVal) (made : MadeKey) (fault : Option OperatorKeyFault) :
    Effect P t (.create name made fault) (t.create P T name made fault) := by
  rw [create]
  split
  · exact kept_of_error
  · exact kept_of_error
  · next tokenHash _ hhash =>
      split
      · exact kept_of_error
      · exact kept_of_error
      · split
        · exact kept_of_error
        · next h => exact .created h hhash

theorem effect_revoke (keyId : Str) (fault : Option OperatorKeyFault) :
    Effect P t (.revoke keyId fault) (t.revoke keyId fault) := by
  rw [revoke.eq_def]
  split
  · exact kept_of_error
  · exact kept_of_error
  · exact kept_of_error
  · next row _ hfind =>
      split
      · exact kept_of_error
      · split
        · exact kept_of_error
        · exact .revoked hfind

theorem authenticate_reads (value : PyVal) (fault : Option OperatorKeyFault) :
    (∃ e, t.authenticate P value fault = .error e) ∨
      ∃ key, t.authenticate P value fault = .ok (.identified key) := by
  rw [authenticate.eq_def]
  split
  · split
    · split
      · exact .inl ⟨_, rfl⟩
      · exact .inl ⟨_, rfl⟩
      · exact .inr ⟨_, rfl⟩
    · exact .inr ⟨_, rfl⟩
  · exact .inr ⟨_, rfl⟩

theorem effect (t : OperatorKeyTable) (call : OperatorKeyCall) :
    Effect P t call (t.perform P T call) := by
  cases call with
  | create name made fault => exact effect_create name made fault
  | authenticate value fault =>
      rcases authenticate_reads (P := P) (t := t) value fault with ⟨e, h⟩ | ⟨key, h⟩
      · rw [perform, h]
        exact kept_of_error
      · rw [perform, h]
        exact .kept (by simp) (by simp)
  | revoke keyId fault => exact effect_revoke keyId fault
  | listKeys fault =>
      rw [perform, listKeys.eq_def]
      split
      · exact kept_of_error
      · exact kept_of_error
      · exact .kept (by simp) (by simp)

end OperatorKeyTable

namespace OperatorKeyTable

section Reflected

variable {P : Primitives} {T : PrintTable} {t : OperatorKeyTable} {calls : List OperatorKeyCall}
  {call : OperatorKeyCall} {keyId token : Str} {key : IssuedKey} {row : OperatorKeyRow}

theorem issued_concat : Issued P T (calls ++ [call]) token key ↔
    Issued P T calls token key ∨
      OperatorKeyCall.Issues token key call ((served P T calls).perform P T call).2 :=
  Calls.happened_concat

theorem revoked_concat : Revoked P T (calls ++ [call]) keyId ↔
    Revoked P T calls keyId ∨
      OperatorKeyCall.Revokes keyId call ((served P T calls).perform P T call).2 :=
  Calls.happened_concat

theorem mem_markRevoked : row ∈ (t.markRevoked keyId).rows ↔
    ∃ old ∈ t.rows, (if old.keyId = keyId then { old with revoked := true } else old) = row :=
  List.mem_map

-- a row before and after revoke says the same of its key
theorem stores_marked : Stores P (if row.keyId = keyId then { row with revoked := true } else row)
    token key ↔ Stores P row token key := by
  split
  · exact ⟨fun h => ⟨h.issued, h.hash, h.keyId⟩, fun h => ⟨h.issued, h.hash, h.keyId⟩⟩
  · exact Iff.rfl

theorem find_eq_some (h : t.find keyId = some row) : row ∈ t.rows ∧ row.keyId = keyId :=
  by
  have hid := List.find?_some h
  exact ⟨List.mem_of_find?_eq_some h, of_decide_eq_true hid⟩

theorem unique_row {row' : OperatorKeyRow} (h : row ∈ t.rows) (h' : row' ∈ t.rows)
    (hid : row.keyId = row'.keyId) : row = row' :=
  List.inj_on_of_nodup_map t.distinct h h' hid

theorem find_of_mem (h : row ∈ t.rows) : t.find row.keyId = some row := by
  cases hfind : t.find row.keyId with
  | none =>
      rw [find, List.find?_eq_none] at hfind
      exact absurd (decide_eq_true rfl) (hfind row h)
  | some row' =>
      obtain ⟨hmem, hid⟩ := find_eq_some hfind
      rw [unique_row h hmem hid.symm]

theorem reflects_created {name : PyVal} {made : MadeKey} {operatorId tokenHash : Str}
    (h : Reflects P T calls t) (hnew : made.keyId ∉ t.rows.map OperatorKeyRow.keyId)
    (hhash : asciiHash P made.token = some tokenHash)
    (hissued : ∀ token key, Issued P T (calls ++ [call]) token key ↔ Issued P T calls token key ∨
      OperatorKeyCall.Issues token key (.create name made none)
        (.ok (.created made.keyId operatorId made.token)))
    (hrevoked : ∀ keyId, Revoked P T (calls ++ [call]) keyId ↔ Revoked P T calls keyId) :
    Reflects P T (calls ++ [call])
      (t.insert ⟨made.keyId, operatorId, tokenHash, made.createdAt, false⟩ hnew) where
  issued := by
    intro row hrow
    rcases List.mem_append.mp hrow with hrow | hrow
    · obtain ⟨token, htoken, hstores⟩ := h.issued row hrow
      exact ⟨token, (hissued _ _).mpr (.inl htoken), hstores⟩
    · obtain rfl := List.mem_singleton.mp hrow
      exact ⟨made.token, (hissued _ _).mpr (.inr ⟨name, made, none, rfl, rfl, rfl⟩),
        ⟨rfl, hhash, tokenKeyId_token made⟩⟩
  stored := by
    intro token key htoken
    rcases (hissued _ _).mp htoken with htoken | ⟨_, _, _, hcall, hcreated, hanswer⟩
    · obtain ⟨row, hrow, hstores⟩ := h.stored token key htoken
      exact ⟨row, List.mem_append_left _ hrow, hstores⟩
    · obtain ⟨-, rfl, -⟩ := OperatorKeyCall.create.inj hcall
      obtain ⟨hid, hname, rfl⟩ := OperatorKeyAnswer.created.inj (Except.ok.inj hanswer)
      refine ⟨_, List.mem_append_right _ (List.mem_singleton_self _), ?_, hhash, ?_⟩
      · cases key
        exact congr (congrArg₂ IssuedKey.mk hid hname) hcreated
      · rw [tokenKeyId_token, hid]
  revoked := by
    intro keyId
    rw [hrevoked, h.revoked]
    constructor
    · rintro ⟨row, hrow, hid, hflag⟩
      exact ⟨row, List.mem_append_left _ hrow, hid, hflag⟩
    · rintro ⟨row, hrow, hid, hflag⟩
      rcases List.mem_append.mp hrow with hrow | hrow
      · exact ⟨row, hrow, hid, hflag⟩
      · obtain rfl := List.mem_singleton.mp hrow
        cases hflag

theorem reflects_revoked {keyId : Str} {found : OperatorKeyRow} (h : Reflects P T calls t)
    (hfind : t.find keyId = some found)
    (hissued : ∀ token key, Issued P T (calls ++ [call]) token key ↔ Issued P T calls token key)
    (hrevoked : ∀ keyId', Revoked P T (calls ++ [call]) keyId' ↔
      Revoked P T calls keyId' ∨ keyId' = keyId) :
    Reflects P T (calls ++ [call]) (t.markRevoked keyId) where
  issued := by
    intro row hrow
    obtain ⟨old, hold, rfl⟩ := mem_markRevoked.mp hrow
    obtain ⟨token, htoken, hstores⟩ := h.issued old hold
    have hkept : (if old.keyId = keyId then { old with revoked := true } else old).issued =
        old.issued := by
      split <;> rfl
    rw [hkept]
    exact ⟨token, (hissued _ _).mpr htoken, stores_marked.mpr hstores⟩
  stored := by
    intro token key htoken
    obtain ⟨old, hold, hstores⟩ := h.stored token key ((hissued _ _).mp htoken)
    exact ⟨_, mem_markRevoked.mpr ⟨old, hold, rfl⟩, stores_marked.mpr hstores⟩
  revoked := by
    intro keyId'
    rw [hrevoked, h.revoked]
    constructor
    · rintro (⟨old, hold, hid, hflag⟩ | rfl)
      · refine ⟨_, mem_markRevoked.mpr ⟨old, hold, rfl⟩, ?_, ?_⟩
        · split <;> exact hid
        · split
          · rfl
          · exact hflag
      · obtain ⟨hmem, hid⟩ := find_eq_some hfind
        refine ⟨_, mem_markRevoked.mpr ⟨found, hmem, rfl⟩, ?_, ?_⟩
        · rw [if_pos hid]
          exact hid
        · rw [if_pos hid]
    · rintro ⟨row, hrow, hid, hflag⟩
      obtain ⟨old, hold, rfl⟩ := mem_markRevoked.mp hrow
      by_cases hold' : old.keyId = keyId
      · rw [if_pos hold'] at hid
        exact .inr (hid.symm.trans hold')
      · rw [if_neg hold'] at hid hflag
        exact .inl ⟨old, hold, hid, hflag⟩

theorem reflects_kept (h : Reflects P T calls t)
    (hissued : ∀ token key, Issued P T (calls ++ [call]) token key ↔ Issued P T calls token key)
    (hrevoked : ∀ keyId, Revoked P T (calls ++ [call]) keyId ↔ Revoked P T calls keyId) :
    Reflects P T (calls ++ [call]) t where
  issued := by
    intro row hrow
    obtain ⟨token, htoken, hstores⟩ := h.issued row hrow
    exact ⟨token, (hissued _ _).mpr htoken, hstores⟩
  stored := fun token key htoken => h.stored token key ((hissued _ _).mp htoken)
  revoked := fun keyId => (hrevoked keyId).trans (h.revoked keyId)

theorem reflects_step (h : Reflects P T calls (served P T calls)) (call : OperatorKeyCall) :
    Reflects P T (calls ++ [call]) ((served P T calls).perform P T call).1 := by
  have hissued : ∀ token key, Issued P T (calls ++ [call]) token key ↔ _ :=
    fun token key => issued_concat
  have hrevoked : ∀ keyId, Revoked P T (calls ++ [call]) keyId ↔ _ :=
    fun keyId => revoked_concat
  have heffect := effect (P := P) (T := T) (served P T calls) call
  generalize (served P T calls).perform P T call = outcome at hissued hrevoked heffect ⊢
  cases heffect with
  | created hnew hhash =>
      refine reflects_created h hnew hhash hissued fun keyId => (hrevoked keyId).trans ?_
      refine or_iff_left ?_
      rintro ⟨_, hcall, -⟩
      cases hcall
  | @revoked keyId fault row hfind =>
      refine reflects_revoked h hfind (fun token key => (hissued token key).trans ?_)
        fun keyId' => (hrevoked keyId').trans (or_congr_right ?_)
      · refine or_iff_left ?_
        rintro ⟨_, _, _, hcall, -⟩
        cases hcall
      · constructor
        · rintro ⟨_, hcall, -⟩
          exact (OperatorKeyCall.revoke.inj hcall).1.symm
        · rintro rfl
          exact ⟨fault, rfl, rfl⟩
  | kept hcreated hnotrevoked =>
      refine reflects_kept h (fun token key => (hissued token key).trans ?_)
        fun keyId => (hrevoked keyId).trans ?_
      · refine or_iff_left ?_
        rintro ⟨_, _, _, -, -, hanswer⟩
        exact hcreated _ _ _ hanswer
      · refine or_iff_left ?_
        rintro ⟨_, -, hanswer⟩
        exact hnotrevoked hanswer

theorem reflects (calls : List OperatorKeyCall) : Reflects P T calls (served P T calls) := by
  refine Calls.reflects ⟨?_, ?_, ?_⟩ (fun calls call h => reflects_step h call) calls
  · intro row hrow
    cases hrow
  · intro token key htoken
    exact absurd htoken Calls.not_happened_nil
  · intro keyId
    refine iff_of_false Calls.not_happened_nil ?_
    rintro ⟨row, hrow, -⟩
    cases hrow

end Reflected

end OperatorKeyTable

namespace OperatorKeyTable

variable (P : Primitives) (T : PrintTable)

-- no other token of a run has the hash of this one
def Apart (calls : List OperatorKeyCall) (token : Str) : Prop :=
  ∀ other key, Issued P T calls other key → asciiHash P other = asciiHash P token → other = token

-- the bearer of a token is taken for the owner of a key
def Recognizes (t : OperatorKeyTable) (token : Str) (key : IssuedKey) : Prop :=
  ∃ row, t.authenticate P (.str token) none = .ok (.identified (some row)) ∧ row.issued = key

-- what the stores of a database answer is what their calls have made of it
structure Exact (calls : List OperatorKeyCall) : Prop where
  recognizes : ∀ token key, Apart P T calls token →
    (Recognizes P (served P T calls) token key ↔
      Issued P T calls token key ∧ ¬ Revoked P T calls key.keyId)
  lists : ∃ keys, (served P T calls).listKeys none = .ok (.listed keys) ∧
    keys.Pairwise (fun a b => a.keyId < b.keyId) ∧
    ∀ entry, entry ∈ keys ↔ (∃ token, Issued P T calls token entry.issued) ∧
      (entry.revoked = true ↔ Revoked P T calls entry.keyId)
  revokes : ∀ keyId, ((served P T calls).revoke keyId none).2 = .ok .revoked ↔
    (∃ token key, Issued P T calls token key ∧ key.keyId = keyId) ∧ ¬ Revoked P T calls keyId

variable {P T} {t : OperatorKeyTable} {calls : List OperatorKeyCall} {keyId token : Str}
  {key : IssuedKey} {row : OperatorKeyRow}

theorem verify_eq_some {tokenHash : Str} : t.verify keyId tokenHash = some row ↔
    row ∈ t.rows ∧ row.keyId = keyId ∧ row.revoked = false ∧ tokenHash = row.tokenHash := by
  rw [verify]
  constructor
  · intro h
    split at h
    · cases h
    · next found hfind =>
        obtain ⟨hmem, hid⟩ := find_eq_some hfind
        split at h
        · next hgood =>
            obtain rfl := Option.some.inj h
            exact ⟨hmem, hid, hgood⟩
        · cases h
  · rintro ⟨hmem, rfl, hgood⟩
    rw [find_of_mem hmem]
    exact if_pos hgood

theorem recognizes_iff : Recognizes P t token key ↔
    ∃ row ∈ t.rows, Stores P row token key ∧ row.revoked = false := by
  constructor
  · rintro ⟨row, hrow, rfl⟩
    simp only [authenticate] at hrow
    split at hrow
    · next keyId tokenHash hid hhash =>
        obtain ⟨hmem, rfl, hlive, rfl⟩ := verify_eq_some.mp
          (OperatorKeyAnswer.identified.inj (Except.ok.inj hrow))
        exact ⟨row, hmem, ⟨rfl, hhash, hid⟩, hlive⟩
    · cases hrow
  · rintro ⟨row, hmem, hstores, hlive⟩
    refine ⟨row, ?_, hstores.issued⟩
    have hid : row.keyId = key.keyId := congrArg IssuedKey.keyId hstores.issued
    have hverify : t.verify key.keyId row.tokenHash = some row :=
      verify_eq_some.mpr ⟨hmem, hid, hlive, rfl⟩
    simp only [authenticate, hstores.keyId, hstores.hash, hverify]

theorem revoked_iff_of_mem (h : Reflects P T calls t) (hrow : row ∈ t.rows) :
    row.revoked = true ↔ Revoked P T calls row.keyId := by
  rw [h.revoked]
  constructor
  · intro hflag
    exact ⟨row, hrow, rfl, hflag⟩
  · rintro ⟨row', hrow', hid, hflag⟩
    rwa [← unique_row hrow' hrow hid]

theorem recognizes_of_reflects (h : Reflects P T calls t) (hapart : Apart P T calls token) :
    Recognizes P t token key ↔ Issued P T calls token key ∧ ¬ Revoked P T calls key.keyId := by
  rw [recognizes_iff]
  constructor
  · rintro ⟨row, hrow, hstores, hlive⟩
    obtain ⟨other, hother, hissued⟩ := h.issued row hrow
    obtain rfl := hapart other row.issued hother (hissued.hash.trans hstores.hash.symm)
    obtain rfl := hstores.issued
    refine ⟨hother, fun hrevoked => ?_⟩
    rw [(revoked_iff_of_mem h hrow).mpr hrevoked] at hlive
    cases hlive
  · rintro ⟨hissued, hlive⟩
    obtain ⟨row, hrow, hstores⟩ := h.stored token key hissued
    refine ⟨row, hrow, hstores, ?_⟩
    rw [← Bool.not_eq_true, revoked_iff_of_mem h hrow]
    have hid : row.keyId = key.keyId := congrArg IssuedKey.keyId hstores.issued
    rwa [hid]

theorem listed_of_reflects (h : Reflects P T calls t) {entry : OperatorKeyEntry} :
    entry ∈ (t.rows.insertionSort (fun a b => a.keyId ≤ b.keyId)).map OperatorKeyRow.publicDict ↔
      (∃ token, Issued P T calls token entry.issued) ∧
        (entry.revoked = true ↔ Revoked P T calls entry.keyId) := by
  rw [List.mem_map]
  simp only [List.mem_insertionSort]
  constructor
  · rintro ⟨row, hrow, rfl⟩
    obtain ⟨token, htoken, -⟩ := h.issued row hrow
    exact ⟨⟨token, htoken⟩, revoked_iff_of_mem h hrow⟩
  · rintro ⟨⟨token, htoken⟩, hflag⟩
    obtain ⟨row, hrow, hstores⟩ := h.stored token _ htoken
    refine ⟨row, hrow, ?_⟩
    obtain ⟨keyId, operatorId, createdAt, revoked⟩ := entry
    obtain ⟨rfl, rfl, rfl⟩ := IssuedKey.mk.inj hstores.issued
    have hsame : row.revoked = revoked :=
      Bool.eq_iff_iff.mpr ((revoked_iff_of_mem h hrow).trans hflag.symm)
    rw [OperatorKeyRow.publicDict, hsame]

theorem sorted_keyIds (t : OperatorKeyTable) :
    (t.rows.insertionSort (fun a b => a.keyId ≤ b.keyId)).Pairwise
      (fun a b => a.keyId < b.keyId) := by
  have hperm := List.perm_insertionSort (fun a b : OperatorKeyRow => a.keyId ≤ b.keyId) t.rows
  have hdistinct := (hperm.map OperatorKeyRow.keyId).nodup_iff.mpr t.distinct
  rw [List.nodup_iff_pairwise_ne, List.pairwise_map] at hdistinct
  exact ((List.pairwise_insertionSort _ _).and hdistinct).imp fun h => lt_of_le_of_ne h.1 h.2

theorem tokenKeyId_sublist (h : tokenKeyId token = some keyId) : ∀ p ∈ keyId, p ∈ token := by
  intro p hp
  rw [tokenKeyId] at h
  split at h
  · simp only at h
    split at h
    · split at h
      · cases h
      · obtain rfl := Option.some.inj h
        exact List.mem_of_mem_drop ((List.takeWhile_prefix _).subset hp)
    · cases h
  · cases h

theorem encode_keyId (h : Stores P row token key) : (encode key.keyId).isSome = true := by
  refine encode_of_isAscii ?_
  have hascii : isAscii token = true := by
    by_contra hnot
    have := h.hash
    rw [asciiHash, if_neg hnot] at this
    cases this
  rw [isAscii, List.all_eq_true] at hascii ⊢
  intro p hp
  exact hascii p (tokenKeyId_sublist h.keyId p hp)

theorem revoke_eq_ok (h : Reflects P T calls t) : (t.revoke keyId none).2 = .ok .revoked ↔
    (∃ token key, Issued P T calls token key ∧ key.keyId = keyId) ∧ ¬ Revoked P T calls keyId := by
  constructor
  · intro hok
    simp only [revoke] at hok
    split at hok
    · cases hok
    · cases hok
    · cases hok
    · next found _ hfind _ =>
        obtain ⟨hmem, rfl⟩ := find_eq_some hfind
        split at hok
        · cases hok
        · next hlive =>
            obtain ⟨token, htoken, -⟩ := h.issued found hmem
            exact ⟨⟨token, _, htoken, rfl⟩, fun hrevoked =>
              hlive ((revoked_iff_of_mem h hmem).mpr hrevoked)⟩
  · rintro ⟨⟨token, key, htoken, rfl⟩, hlive⟩
    obtain ⟨row, hrow, hstores⟩ := h.stored token key htoken
    have hid : row.keyId = key.keyId := congrArg IssuedKey.keyId hstores.issued
    obtain ⟨bytes, hbytes⟩ := Option.isSome_iff_exists.mp (encode_keyId hstores)
    have hfind := find_of_mem hrow
    have hflag : ¬ row.revoked = true := by
      rw [revoked_iff_of_mem h hrow, hid]
      exact hlive
    rw [hid] at hfind
    simp only [revoke, hbytes, hfind, if_neg hflag]

theorem answers_exact (P : Primitives) (T : PrintTable) (calls : List OperatorKeyCall) :
    Exact P T calls where
  recognizes := fun _ _ hapart => recognizes_of_reflects (reflects calls) hapart
  lists := ⟨_, rfl, List.pairwise_map.mpr (sorted_keyIds _), fun _ =>
    listed_of_reflects (reflects calls)⟩
  revokes := fun _ => revoke_eq_ok (reflects calls)

end OperatorKeyTable

namespace AuthenticatedAPI

-- what the API asks of a store: the key that a bearer credential authenticates
def operatorStore (P : Primitives) (t : OperatorKeyTable) (fault : Option OperatorKeyFault)
    (bearer : Str) : Result (Option OperatorApiKey) :=
  match t.authenticate P (.str bearer) fault with
  | .ok (.identified key) => .ok (key.map (fun row => ⟨row.operatorId, row.keyId⟩))
  | .ok _ => .ok none
  | .error e => .error e

variable {P : Primitives} {t : OperatorKeyTable} {api : AuthenticatedAPI} {request : HttpRequest}
  {attributes : RequestAttributes} {keyId : Str} {fault : Option OperatorKeyFault}

theorem authenticate_of_fault {bearer : Str} {row : OperatorKeyRow}
    (h : t.authenticate P (.str bearer) fault = .ok (.identified (some row))) :
    t.authenticate P (.str bearer) none = .ok (.identified (some row)) := by
  simp only [OperatorKeyTable.authenticate] at h ⊢
  split at h
  · split at h
    · cases h
    · cases h
    · exact h
  · cases h

theorem operatorStore_eq_some {bearer : Str} {key : OperatorApiKey}
    (h : operatorStore P t fault bearer = .ok (some key)) : ∃ issued,
      OperatorKeyTable.Recognizes P t bearer issued ∧ issued.keyId = key.keyId ∧
        issued.operatorId = key.operatorId := by
  rw [operatorStore] at h
  split at h
  · next found hfound =>
      obtain ⟨row, rfl, rfl⟩ := Option.map_eq_some_iff.mp (Except.ok.inj h)
      exact ⟨row.issued, ⟨row, authenticate_of_fault hfound, rfl⟩, rfl, rfl⟩
  · cases h
  · cases h

theorem anonymous_operatorKeyId {granted : Bool} (h : anonymous granted = some attributes) :
    attributes.operatorKeyId = none := by
  rw [anonymous] at h
  split at h
  · obtain rfl := Option.some.inj h
    rfl
  · cases h

theorem granted_operatorKeyId {granted : Result Bool}
    (h : anonymous <$> granted = .ok (some attributes)) : attributes.operatorKeyId = none := by
  obtain ⟨_, -, hgranted⟩ := map_eq_ok.mp h
  exact anonymous_operatorKeyId hgranted

theorem identified_operatorKeyId {session : Bool} {identity : RuntimeIdentity}
    (h : api.identified session identity = .ok (some attributes)) :
    attributes.operatorKeyId = none := by
  obtain ⟨enriched, -, henriched⟩ := bind_eq_ok.mp h
  obtain ⟨_, -, rfl⟩ := Option.map_eq_some_iff.mp (Except.ok.inj henriched)
  rfl

-- only the store of operator keys makes a caller the owner of a key
theorem operatorKey_of_authenticated (h : api.authenticated request = .ok (some attributes))
    (hkey : attributes.operatorKeyId = some keyId) : startsWith request.route "/admin" = true ∧
      ∃ operatorId, attributes.operatorId = some operatorId ∧
        api.operatorKey ((bearerCredential request.authorization).getD []) =
          .ok (some ⟨operatorId, keyId⟩) := by
  obtain ⟨found, hfound, h⟩ := bind_eq_ok.mp h
  cases found with
  | some key =>
      have hgranted := Except.ok.inj h
      split at hgranted
      · next hadmin =>
          obtain rfl := Option.some.inj hgranted
          obtain rfl := Option.some.inj hkey
          exact ⟨hadmin, key.operatorId, rfl, hfound⟩
      · cases hgranted
  | none =>
      have hnone : attributes.operatorKeyId = none := by
        simp only at h
        split at h
        · split at h
          · exact identified_operatorKeyId h
          · exact granted_operatorKeyId h
        · obtain ⟨session, -, h⟩ := bind_eq_ok.mp h
          cases session with
          | some identity => exact identified_operatorKeyId h
          | none =>
              simp only at h
              split at h
              · exact granted_operatorKeyId h
              · exact granted_operatorKeyId h
      rw [hnone] at hkey
      cases hkey

theorem bearer_of_operatorKey {credential : Option Str} {key : OperatorApiKey}
    (hstore : api.operatorKeyStore = some (operatorStore P t fault))
    (h : api.operatorKey (credential.getD []) = .ok (some key)) :
    ∃ bearer, credential = some bearer ∧ operatorStore P t fault bearer = .ok (some key) := by
  rw [operatorKey] at h
  split at h
  · next hasked =>
      cases credential with
      | none => exact absurd rfl hasked.2.2
      | some bearer =>
          rw [hstore] at h
          exact ⟨bearer, rfl, h⟩
  · cases h

theorem authenticated_of_reached {operation : Operation}
    (h : api.doPost request P = .reached operation) :
    ∃ attributes, api.authenticated request = .ok (some attributes) := by
  rw [doPost] at h
  split at h
  · cases h
  · split at h
    · next e _ =>
        cases hclause : authenticationErrors e with
        | none =>
            rw [hclause] at h
            cases h
        | some handled =>
            rw [hclause, Option.getD_some] at h
            subst h
            rw [authenticationErrors.eq_def] at hclause
            split at hclause
            · cases hclause
            · cases hclause
    · cases h
    · next attributes hattributes => exact ⟨attributes, hattributes⟩

-- the caller of a POST owns the key whose token it presents
structure ActsWithLiveKey (P : Primitives) (T : PrintTable) (calls : List OperatorKeyCall)
    (bearer : Str) (attributes : RequestAttributes) (key : IssuedKey) : Prop where
  issued : OperatorKeyTable.Issued P T calls bearer key
  live : ¬ OperatorKeyTable.Revoked P T calls key.keyId
  operatorId : attributes.operatorId = some key.operatorId
  keyId : attributes.operatorKeyId = some key.keyId

theorem operator_posts_with_live_key (P : Primitives) (T : PrintTable)
    (calls : List OperatorKeyCall) (api : AuthenticatedAPI) (request : HttpRequest)
    (operation : Operation) (fault : Option OperatorKeyFault)
    (hstore : api.operatorKeyStore =
      some (operatorStore P (OperatorKeyTable.served P T calls) fault))
    (hreached : api.doPost request P = .reached operation) :
    ∃ attributes, api.authenticated request = .ok (some attributes) ∧
      (attributes.operatorKeyId = none ∨
        startsWith request.route "/admin" = true ∧
        ∃ bearer, bearerCredential request.authorization = some bearer ∧
          (OperatorKeyTable.Apart P T calls bearer →
            ∃ key, ActsWithLiveKey P T calls bearer attributes key)) := by
  obtain ⟨attributes, hattributes⟩ := authenticated_of_reached hreached
  refine ⟨attributes, hattributes, ?_⟩
  cases hkey : attributes.operatorKeyId with
  | none => exact .inl rfl
  | some keyId =>
      obtain ⟨hadmin, operatorId, hoperator, hasked⟩ :=
        operatorKey_of_authenticated hattributes hkey
      obtain ⟨bearer, hbearer, hanswer⟩ := bearer_of_operatorKey hstore hasked
      obtain ⟨key, hrecognizes, rfl, rfl⟩ := operatorStore_eq_some hanswer
      refine .inr ⟨hadmin, bearer, hbearer, fun hapart => ⟨key, ?_⟩⟩
      obtain ⟨hissued, hlive⟩ := (OperatorKeyTable.recognizes_of_reflects
        (OperatorKeyTable.reflects calls) hapart).mp hrecognizes
      exact ⟨hissued, hlive, hoperator, hkey⟩

def aliceKey : MadeKey where
  keyId := "a1"
  secret := "s"
  createdAt := "2025-01-01T00:00:00+00:00"
  keyId_ne := by simp [lit]
  secret_ne := by simp [lit]
  keyId_chars := by decide
  secret_chars := by decide

def printsAscii (p : CodePoint) : Bool := decide (32 ≤ p.val ∧ p.val < 127)

theorem plain_of_printsAscii (p : CodePoint) (h : printsAscii p = true) :
    isSurrogate p = false := by
  have hp : 32 ≤ p.val ∧ p.val < 127 := of_decide_eq_true h
  rw [isSurrogate, decide_eq_false]
  omega

def asciiPrintable : PrintTable := ⟨printsAscii, plain_of_printsAscii⟩

def bobKey : MadeKey where
  keyId := "b1"
  secret := "secret"
  createdAt := "2025-01-02T00:00:00+00:00"
  keyId_ne := by simp [lit]
  secret_ne := by simp [lit]
  keyId_chars := by decide
  secret_chars := by decide

-- the key of bob is revoked again
def aliceCalls : List OperatorKeyCall :=
  [.create (.str " alice ") aliceKey none, .create (.str "bob") bobKey none, .revoke "b1" none]

theorem token_of_issued {token : Str} {key : IssuedKey}
    (h : OperatorKeyTable.Issued sizePrimitives asciiPrintable aliceCalls token key) :
    token = lit "gasop_a1.s" ∨ token = lit "gasop_b1.secret" := by
  have hcalls : aliceCalls = [] ++ [.create (.str " alice ") aliceKey none] ++
      [.create (.str "bob") bobKey none] ++ [.revoke "b1" none] := rfl
  rw [hcalls, OperatorKeyTable.issued_concat, OperatorKeyTable.issued_concat,
    OperatorKeyTable.issued_concat] at h
  rcases h with ((hnone | halice) | hbob) | hrevoked
  · exact absurd hnone Calls.not_happened_nil
  · obtain ⟨_, _, _, -, -, hanswer⟩ := halice
    exact .inl (OperatorKeyAnswer.created.inj (Except.ok.inj hanswer)).2.2.symm
  · obtain ⟨_, _, _, -, -, hanswer⟩ := hbob
    exact .inr (OperatorKeyAnswer.created.inj (Except.ok.inj hanswer)).2.2.symm
  · obtain ⟨_, _, _, hcall, -, -⟩ := hrevoked
    cases hcall

theorem aliceToken_apart :
    OperatorKeyTable.Apart sizePrimitives asciiPrintable aliceCalls (lit "gasop_a1.s") := by
  intro other key hissued hhash
  rcases token_of_issued hissued with rfl | rfl
  · rfl
  · have hdiffers : asciiHash sizePrimitives (lit "gasop_b1.secret") ≠
        asciiHash sizePrimitives (lit "gasop_a1.s") := by decide +kernel
    exact absurd hhash hdiffers

def aliceApi : AuthenticatedAPI where
  operatorKeyStore :=
    some (operatorStore sizePrimitives
      (OperatorKeyTable.served sizePrimitives asciiPrintable aliceCalls) none)
  jobStore := true

def aliceRequest : HttpRequest where
  command := "POST"
  route := "/admin/jobs"
  authorization := "Bearer gasop_a1.s"

theorem operator_posts_demo :
    aliceApi.doPost aliceRequest sizePrimitives = .reached (.submitJob [] "api-key:alice:a1") ∧
      ∃ attributes key, aliceApi.authenticated aliceRequest = .ok (some attributes) ∧
        ActsWithLiveKey sizePrimitives asciiPrintable aliceCalls "gasop_a1.s" attributes key := by
  have hreached : aliceApi.doPost aliceRequest sizePrimitives =
      .reached (.submitJob [] "api-key:alice:a1") := rfl
  obtain ⟨attributes, hattributes, hacts⟩ := operator_posts_with_live_key sizePrimitives
    asciiPrintable aliceCalls aliceApi aliceRequest _ none rfl hreached
  have hkey : attributes.operatorKeyId = some (lit "a1") := by
    have hknown : (aliceApi.authenticated aliceRequest).toOption.bind id =
        some attributes := by rw [hattributes]; rfl
    have hid : ((aliceApi.authenticated aliceRequest).toOption.bind id).bind
        RequestAttributes.operatorKeyId = some (lit "a1") := rfl
    rwa [hknown] at hid
  rcases hacts with hnone | ⟨-, bearer, hbearer, hacts⟩
  · rw [hkey] at hnone
    cases hnone
  · have hpresented : bearerCredential aliceRequest.authorization = some (lit "gasop_a1.s") := rfl
    obtain rfl := Option.some.inj (hpresented.symm.trans hbearer)
    obtain ⟨key, hkey⟩ := hacts aliceToken_apart
    exact ⟨hreached, attributes, key, hattributes, hkey⟩

end AuthenticatedAPI

end GovernedAutonomy
