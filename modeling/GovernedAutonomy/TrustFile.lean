import GovernedAutonomy.KeyLifecycle
import GovernedAutonomy.PolicyRoundTrip
import GovernedAutonomy.Python.Spelled
import GovernedAutonomy.TrustChange

namespace GovernedAutonomy

open Python Protocol

section Base64

variable {n : Nat} {rest : Str} {bs : List UInt8}

theorem base64Char_value : ∀ n < 64, base64Value? (base64Char n) = some n ∧
    base64Char n ≠ ofChar '=' ∧ (base64Char n).val < 128 := by
  decide +kernel

theorem a2b_first (h : n < 64) (l p : Nat) :
    a2bBase64 ⟨0, l, p, bs⟩ (base64Char n :: rest) = a2bBase64 ⟨1, n, 0, bs⟩ rest := by
  obtain ⟨hvalue, hpad, -⟩ := base64Char_value n h
  rw [a2bBase64, if_neg hpad, hvalue]
  rfl

theorem a2b_second (h : n < 64) (l p : Nat) :
    a2bBase64 ⟨1, l, p, bs⟩ (base64Char n :: rest) =
      a2bBase64 ⟨2, n % 16, 0, bs ++ [UInt8.ofNat (4 * l + n / 16)]⟩ rest := by
  obtain ⟨hvalue, hpad, -⟩ := base64Char_value n h
  rw [a2bBase64, if_neg hpad, hvalue]
  rfl

theorem a2b_third (h : n < 64) (l p : Nat) :
    a2bBase64 ⟨2, l, p, bs⟩ (base64Char n :: rest) =
      a2bBase64 ⟨3, n % 4, 0, bs ++ [UInt8.ofNat (16 * l + n / 4)]⟩ rest := by
  obtain ⟨hvalue, hpad, -⟩ := base64Char_value n h
  rw [a2bBase64, if_neg hpad, hvalue]
  rfl

theorem a2b_fourth (h : n < 64) (l p : Nat) :
    a2bBase64 ⟨3, l, p, bs⟩ (base64Char n :: rest) =
      a2bBase64 ⟨0, 0, 0, bs ++ [UInt8.ofNat (64 * l + n)]⟩ rest := by
  obtain ⟨hvalue, hpad, -⟩ := base64Char_value n h
  rw [a2bBase64, if_neg hpad, hvalue]
  rfl

theorem ofNat_eq {a : UInt8} {k : Nat} (h : k = a.toNat) : UInt8.ofNat k = a := by
  rw [h, UInt8.ofNat_toNat]

def padding (length : Nat) : Str := List.replicate ((4 - length % 4) % 4) (ofChar '=')

theorem a2b_b64encode (bytes : List UInt8) : ∀ (l p : Nat) (bs : List UInt8),
    a2bBase64 ⟨0, l, p, bs⟩ (b64encode bytes ++ padding (b64encode bytes).length) =
      .ok (bs ++ bytes) := by
  have hlt : ∀ a : UInt8, a.toNat < 256 := fun a => a.toNat_lt
  induction bytes using b64encode.induct with
  | case1 =>
      intro l p bs
      simp [b64encode, padding, a2bBase64]
  | case2 a =>
      intro l p bs
      have ha := hlt a
      rw [show b64encode [a] ++ padding (b64encode [a]).length = base64Char (a.toNat / 4) ::
        base64Char (a.toNat % 4 * 16) :: [ofChar '=', ofChar '='] from rfl]
      rw [a2b_first (by omega), a2b_second (by omega), ofNat_eq (a := a) (by omega)]
      rfl
  | case3 a b =>
      intro l p bs
      have ha := hlt a
      have hb := hlt b
      rw [show b64encode [a, b] ++ padding (b64encode [a, b]).length = base64Char (a.toNat / 4) ::
        base64Char (a.toNat % 4 * 16 + b.toNat / 16) :: base64Char (b.toNat % 16 * 4) ::
          [ofChar '='] from rfl]
      rw [a2b_first (by omega), a2b_second (by omega), ofNat_eq (a := a) (by omega),
        a2b_third (by omega), ofNat_eq (a := b) (by omega), List.append_assoc]
      rfl
  | case4 a b c rest ih =>
      intro l p bs
      have ha := hlt a
      have hb := hlt b
      have hc := hlt c
      have hpadding : padding (b64encode (a :: b :: c :: rest)).length =
          padding (b64encode rest).length := by
        simp only [b64encode, List.length_cons, padding]
        congr 2
        omega
      rw [hpadding, b64encode, List.cons_append, List.cons_append, List.cons_append,
        List.cons_append, a2b_first (by omega), a2b_second (by omega),
        ofNat_eq (a := a) (by omega), a2b_third (by omega), ofNat_eq (a := b) (by omega),
        a2b_fourth (by omega), ofNat_eq (a := c) (by omega), ih]
      simp

theorem ascii_b64encode (bytes : List UInt8) : ∀ p ∈ b64encode bytes, p.val < 128 := by
  have hlt : ∀ a : UInt8, a.toNat < 256 := fun a => a.toNat_lt
  have hchar : ∀ {n : Nat}, n < 64 → (base64Char n).val < 128 := fun h => (base64Char_value _ h).2.2
  induction bytes using b64encode.induct with
  | case1 => simp [b64encode]
  | case2 a =>
      have ha := hlt a
      simp only [b64encode, List.forall_mem_cons]
      exact ⟨hchar (by omega), hchar (by omega), by simp⟩
  | case3 a b =>
      have ha := hlt a
      have hb := hlt b
      simp only [b64encode, List.forall_mem_cons]
      exact ⟨hchar (by omega), hchar (by omega), hchar (by omega), by simp⟩
  | case4 a b c rest ih =>
      have ha := hlt a
      have hb := hlt b
      have hc := hlt c
      simp only [b64encode, List.forall_mem_cons]
      exact ⟨hchar (by omega), hchar (by omega), hchar (by omega), hchar (by omega), ih⟩

theorem b64decode_b64encode (bytes : List UInt8) : b64decode (b64encode bytes) = .ok bytes := by
  have hascii : (b64encode bytes ++ padding (b64encode bytes).length).all
      (fun p => decide (p.val < 128)) = true := by
    rw [List.all_append, Bool.and_eq_true, List.all_eq_true, List.all_eq_true]
    refine ⟨fun p hp => decide_eq_true (ascii_b64encode bytes p hp), fun p hp => ?_⟩
    rw [List.eq_of_mem_replicate hp]
    decide
  have hdecode := a2b_b64encode bytes 0 0 []
  rw [List.nil_append] at hdecode
  unfold b64decode
  simp only
  rw [← padding, if_pos hascii, hdecode]

end Base64

section Writing

variable {V : Type} {depth : Nat}

theorem toTreeItems_strs (ss : List Str) :
    PyVal.toTreeItems depth (ss.map .str) = .ok (ss.map .str) := by
  induction ss with
  | nil => rfl
  | cons s ss ih =>
      simp only [List.map_cons, PyVal.toTreeItems, PyVal.toTree, ih]
      rfl

theorem toTree_strs (ss : List Str) :
    (strList ss).toTree (depth + 1) = .ok (.arr (ss.map .str)) := by
  rw [strList, PyVal.toTree, toTreeItems_strs]
  rfl

theorem collect_strs {es : List (Str × Json)} :
    collect (es.map (fun e => (PyKey.str e.1, (.ok e.2 : Result Json)))) = .ok es := by
  induction es with
  | nil => rfl
  | cons e es ih =>
      rw [List.map_cons, collect, ih]
      rfl

-- a dict that is in the order of its keys already
theorem toTree_sorted {ms : List (Str × PyVal)} {es : List (Str × Json)}
    (hsorted : ms.Pairwise (fun a b => a.1 ≤ b.1))
    (hms : List.Forall₂ (fun m e => m.1 = e.1 ∧ m.2.toTree depth = .ok e.2) ms es) :
    (PyVal.dict (ms.map (fun m => (.str m.1, m.2)))).toTree (depth + 1) = .ok (.obj es) := by
  have hentries : PyVal.toTreeEntries depth (ms.map (fun m => (.str m.1, m.2))) =
      es.map (fun e => (PyKey.str e.1, (.ok e.2 : Result Json))) := by
    rw [PyVal.toTreeEntries_eq_map]
    clear hsorted
    induction hms with
    | nil => rfl
    | cons h _ ih => simp only [List.map_cons, ih, h.1, h.2]
  have hkeys : es.Pairwise (fun a b => a.1 ≤ b.1) := by
    have hmap : ms.map Prod.fst = es.map Prod.fst := by
      clear hsorted hentries
      induction hms with
      | nil => rfl
      | cons h _ ih => rw [List.map_cons, List.map_cons, ih, h.1]
    have hfst : (ms.map Prod.fst).Pairwise (· ≤ ·) := List.pairwise_map.mpr hsorted
    rw [hmap] at hfst
    exact List.pairwise_map.mp hfst
  rw [PyVal.toTree, hentries, sortEntries_of_pairwise]
  · simp only [collect_strs, bind, Except.bind]
  · intro e he
    obtain ⟨m, -, rfl⟩ := List.mem_map.mp he
    rfl
  · exact List.pairwise_map.mpr (hkeys.imp fun h => keyLe_str.mpr h)

end Writing

namespace TrustStore

-- the document that is written for a store
def tree (store : TrustStore) : Json := .obj
  [(lit "keys", .obj ((sortedItems store.keys).map (fun k => (k.1, .str (b64encode k.2.raw))))),
    (lit "revoked", .arr ((sortedStrs store.revoked).map .str))]

theorem toTree_toDict (store : TrustStore) (depth : Nat) :
    (PyVal.dict store.toDict).toTree (depth + 2) = .ok store.tree := by
  have hkeys : (strDict (fun key : PublicKey => .str (b64encode key.raw))
      (sortedItems store.keys)).toTree (depth + 1) =
        .ok (.obj ((sortedItems store.keys).map (fun k => (k.1, .str (b64encode k.2.raw))))) := by
    have hmembers := @toTree_sorted depth
      ((sortedItems store.keys).map (fun k => (k.1, .str (b64encode k.2.raw))))
      ((sortedItems store.keys).map (fun k => (k.1, .str (b64encode k.2.raw))))
      (List.pairwise_map.mpr (pairwise_sortedItems store.keys)) (by
        rw [List.forall₂_map_left_iff, List.forall₂_map_right_iff, List.forall₂_same]
        intro k _
        exact ⟨rfl, by simp only [PyVal.toTree]⟩)
    rwa [List.map_map] at hmembers
  have hle : lit "keys" ≤ lit "revoked" := by decide
  exact @toTree_sorted (depth + 1) [(lit "keys", _), (lit "revoked", _)]
    [(lit "keys", _), (lit "revoked", _)]
    (List.pairwise_pair.mpr hle) (.cons ⟨rfl, hkeys⟩ (.cons ⟨rfl, toTree_strs _⟩ .nil))

end TrustStore

namespace TrustStore

def invalidSchema : Exc := .valueError (lit "trust store has an invalid schema")

def revokedId : PyVal → Result Str
  | .str s => .ok s
  | _ => .error invalidSchema

def revokedIds : PyVal → Result (List Str)
  | .list xs => xs.mapM revokedId
  | _ => .error invalidSchema

def readKey (m : PyKey × PyVal) : Result (Str × PublicKey) := do
  let keyId ← PolicyDocument.actionName "trust store contains an invalid key ID" m.1
  match m.2 with
  | .str encoded => do
      let raw ← b64decode encoded
      let key ← fromPublicBytes raw
      .ok (keyId, key)
  | _ => .error (.valueError (lit "trust store contains an invalid public key"))

def ofKeys (keys : List (Str × PublicKey)) (revoked : List Str) : Result TrustStore :=
  if h : ∀ k ∈ revoked, Dict.has keys k = true then
    .ok
      { keys
        revoked := revoked.dedup
        revokedKnown := by
          intro k hk
          exact h k (List.mem_dedup.mp hk) }
  else .error (.valueError (lit "trust store revokes an unknown key"))

def read (payload : PyVal) : Result TrustStore := do
  let d ← dictOf invalidSchema payload
  raiseIf (d.hasOnly ["keys", "revoked"] = false ∨ d.hasAll ["keys", "revoked"] = false)
    invalidSchema
  let items ← dictOf invalidSchema (d.getD "keys")
  let revoked ← revokedIds (d.getD "revoked")
  let keys ← items.mapM readKey
  ofKeys (Dict.update [] keys) revoked

-- except (OSError, json.JSONDecodeError, KeyError, TypeError, ValueError)
def caught (e : Exc) : Bool :=
  e.isValueError || e.isTypeError || match e with
    | .builtin .keyError => true
    | _ => false

def unsafeFile : Exc := .valueError (lit "trust store could not be loaded safely")

variable (P : Primitives)

-- the file holds UTF-8 text
def load (text : String) : Result TrustStore :=
  reraise caught unsafeFile (do
    let payload ← P.loads (lit text)
    read payload)

def fileStyle : Style := ⟨true, false⟩

def dump (store : TrustStore) : Result String := do
  let text ← P.dumps fileStyle (.dict store.toDict)
  match encode text with
  | some bytes => .ok bytes
  | none => .error (.builtin .unicodeEncodeError)

end TrustStore

-- a store object and what is at its path
structure TrustFile where
  store : TrustStore
  file : Option String

inductive StoreCall where
  | add (keyId : Str) (publicKey : PublicKey) (size : publicKey.raw.length = 32)
  | revoke (keyId : Str)

def StoreCall.change (store : TrustStore) : StoreCall → Result TrustStore
  | .add keyId publicKey _ => store.add keyId publicKey
  | .revoke keyId => store.revoke keyId

namespace TrustFile

variable (P : Primitives)

def construct (file : Option String) : Result TrustStore :=
  match file with
  | none => .ok .empty
  | some text => TrustStore.load P text

-- the entries are changed before the file is replaced
def call (s : TrustFile) (c : StoreCall) : TrustFile × Result Unit :=
  match c.change s.store with
  | .error e => (s, .error e)
  | .ok store =>
      match store.dump P with
      | .error e => (⟨store, s.file⟩, .error e)
      | .ok text => (⟨store, some text⟩, .ok ())

def step (s : TrustFile) (c : StoreCall) : TrustFile := (s.call P c).1

-- two objects that nobody can tell apart, whatever is called on both from now on
structure Indistinct (s t : TrustFile) : Prop where
  resolves : ∀ calls keyId, (Calls.run (step P) s calls).store.resolve keyId =
    (Calls.run (step P) t calls).store.resolve keyId
  answers : ∀ calls c, ((Calls.run (step P) s calls).call P c).2 =
    ((Calls.run (step P) t calls).call P c).2

def Reopens (s : TrustFile) : Prop :=
  ∃ store, construct P s.file = .ok store ∧ Indistinct P s ⟨store, s.file⟩

structure Persistent (s : TrustFile) : Prop where
  reopens : Reopens P s
  known : ∀ keyId ∈ s.store.revoked, Dict.has s.store.keys keyId = true

end TrustFile

def StoreCall.Unpaired : StoreCall → Prop
  | .add keyId _ _ => Python.Unpaired keyId
  | .revoke _ => True

namespace TrustStore

section Reading

variable {P : Primitives} {store : TrustStore} {text : String} {m : PyKey × PyVal}

theorem readKey_eq_ok {k : Str × PublicKey} : readKey m = .ok k ↔
    m.1 = .str k.1 ∧ k.1 ≠ [] ∧ ∃ encoded, m.2 = .str encoded ∧
      b64decode encoded = .ok k.2.raw ∧ k.2.raw.length = 32 := by
  obtain ⟨key, value⟩ := m
  obtain ⟨keyId, publicKey⟩ := k
  simp only [readKey, bind_eq_ok]
  constructor
  · rintro ⟨keyId', hid, h⟩
    unfold PolicyDocument.actionName at hid
    split at hid
    · obtain rfl := Except.ok.inj hid
      split at h
      · rename_i encoded
        obtain ⟨raw, hraw, key', hkey', h⟩ := by simpa only [bind_eq_ok] using h
        obtain ⟨rfl, rfl⟩ := Prod.mk.inj (Except.ok.inj h)
        unfold fromPublicBytes at hkey'
        split at hkey'
        · rename_i hlength
          obtain rfl := Except.ok.inj hkey'
          exact ⟨rfl, by simp, encoded, rfl, hraw, hlength⟩
        · cases hkey'
      · cases h
    · cases hid
  · rintro ⟨rfl, hid, encoded, rfl, hraw, hlength⟩
    cases keyId with
    | nil => exact absurd rfl hid
    | cons c s =>
        refine ⟨c :: s, rfl, ?_⟩
        simp only [hraw, fromPublicBytes, if_pos hlength, bind, Except.bind]

theorem revokedIds_strList (ids : List Str) : revokedIds (strList ids) = .ok ids :=
  mapM_map_eq_self (f := revokedId) fun _ _ => rfl

theorem ofKeys_eq_ok {keys : List (Str × PublicKey)} {revoked : List Str} :
    ofKeys keys revoked = .ok store ↔
      store.keys = keys ∧ store.revoked = revoked.dedup ∧
        ∀ k ∈ revoked, Dict.has keys k = true := by
  unfold ofKeys
  split
  · rename_i h
    constructor
    · intro heq
      obtain rfl := Except.ok.inj heq
      exact ⟨rfl, rfl, h⟩
    · rintro ⟨hkeys, hrevoked, -⟩
      exact congrArg Except.ok (eq_of_keys hkeys hrevoked).symm
  · rename_i h
    constructor
    · intro heq
      cases heq
    · rintro ⟨-, -, hknown⟩
      exact absurd hknown h

theorem read_eq_ok {payload : PyVal} : read payload = .ok store ↔
    ∃ (d items : PyDict) (revoked : List Str) (keys : List (Str × PublicKey)), payload = .dict d ∧
      d.hasOnly ["keys", "revoked"] = true ∧ d.hasAll ["keys", "revoked"] = true ∧
      d.getD "keys" = .dict items ∧ revokedIds (d.getD "revoked") = .ok revoked ∧
      items.mapM readKey = .ok keys ∧ ofKeys (Dict.update [] keys) revoked = .ok store := by
  have hdict : ∀ {e : Exc} {v : PyVal} {d : PyDict}, dictOf e v = .ok d ↔ v = .dict d := by
    intro e v d
    cases v <;> simp [dictOf]
  simp only [read, bind_eq_ok, raiseIf_eq_ok, hdict, not_or, Bool.not_eq_false, exists_const]
  constructor
  · rintro ⟨d, rfl, ⟨honly, hall⟩, items, hitems, revoked, hrevoked, keys, hkeys, h⟩
    exact ⟨d, items, revoked, keys, rfl, honly, hall, hitems, hrevoked, hkeys, h⟩
  · rintro ⟨d, items, revoked, keys, rfl, honly, hall, hitems, hrevoked, hkeys, h⟩
    exact ⟨d, rfl, ⟨honly, hall⟩, items, hitems, revoked, hrevoked, keys, hkeys, h⟩

theorem load_eq_ok : load P text = .ok store ↔
    ∃ t, parseDocument P.recursionLimit (lit text) = .ok t ∧ read (.ofTree t) = .ok store := by
  rw [load, reraise_eq_ok, bind_eq_ok, Interpreter.loads]
  cases parseDocument P.recursionLimit (lit text) with
  | ok t => simp
  | error e => cases e <;> simp

theorem onlyRaises_mapM {α β : Type} {p : Exc → Bool} {f : α → Result β} {xs : List α}
    (hf : ∀ x, OnlyRaises p (f x)) : OnlyRaises p (xs.mapM f) := by
  induction xs with
  | nil => exact onlyRaises_ok []
  | cons x xs ih =>
      rw [List.mapM_cons]
      exact (hf x).bind fun y => ih.bind fun ys => onlyRaises_ok (y :: ys)

theorem onlyRaises_dictOf {p : Exc → Bool} {e : Exc} (h : p e = true) (v : PyVal) :
    OnlyRaises p (dictOf e v) := by
  cases v with
  | dict d => exact onlyRaises_ok d
  | _ => exact onlyRaises_error h

theorem onlyRaises_a2b (s : Str) : ∀ st : Base64State, OnlyRaises caught (a2bBase64 st s) := by
  induction s with
  | nil =>
      intro st
      unfold a2bBase64
      split
      · exact onlyRaises_ok _
      · split <;> exact onlyRaises_error rfl
  | cons p s ih =>
      intro st
      unfold a2bBase64
      split
      · split
        · exact ih st
        · split
          · exact onlyRaises_ok _
          · exact ih _
      · split
        · exact ih st
        · split <;> exact ih _

theorem onlyRaises_b64decode (s : Str) : OnlyRaises caught (b64decode s) := by
  unfold b64decode
  dsimp only
  split
  · exact onlyRaises_a2b _ _
  · exact onlyRaises_error rfl

theorem onlyRaises_readKey (m : PyKey × PyVal) : OnlyRaises caught (readKey m) := by
  refine OnlyRaises.bind ?_ fun keyId => ?_
  · unfold PolicyDocument.actionName
    split
    · exact onlyRaises_ok _
    · exact onlyRaises_error rfl
  · split
    · refine (onlyRaises_b64decode _).bind fun raw => OnlyRaises.bind ?_ fun key => onlyRaises_ok _
      unfold fromPublicBytes
      split
      · exact onlyRaises_ok _
      · exact onlyRaises_error rfl
    · exact onlyRaises_error rfl

theorem onlyRaises_revokedIds (v : PyVal) : OnlyRaises caught (revokedIds v) := by
  unfold revokedIds
  split
  · refine onlyRaises_mapM fun x => ?_
    unfold revokedId
    split
    · exact onlyRaises_ok _
    · exact onlyRaises_error rfl
  · exact onlyRaises_error rfl

theorem onlyRaises_read (payload : PyVal) : OnlyRaises caught (read payload) := by
  refine (onlyRaises_dictOf rfl payload).bind fun d => (onlyRaises_raiseIf rfl).bind fun _ =>
    (onlyRaises_dictOf rfl _).bind fun items => (onlyRaises_revokedIds _).bind fun revoked =>
      (onlyRaises_mapM onlyRaises_readKey).bind fun keys => ?_
  unfold ofKeys
  split
  · exact onlyRaises_ok _
  · exact onlyRaises_error rfl

-- the file is a store, or ValueError: all but the documents that are nested too deeply
theorem load_outcome : ((∃ store, load P text = .ok store) ∨
      ∃ message, load P text = .error (.valueError message)) ↔
    parseDocument P.recursionLimit (lit text) ≠ .error .tooDeep := by
  unfold load Interpreter.loads
  cases parseDocument P.recursionLimit (lit text) with
  | error e => cases e <;> simp [reraise, caught, Exc.isValueError, Exc.isTypeError, bind,
      Except.bind, intTooLong, unsafeFile]
  | ok t =>
      simp only [bind, Except.bind, ne_eq, reduceCtorEq, not_false_eq_true, iff_true]
      cases hread : read (.ofTree t) with
      | ok store => exact Or.inl ⟨store, rfl⟩
      | error e =>
          refine Or.inr ⟨lit "trust store could not be loaded safely", ?_⟩
          rw [reraise, onlyRaises_read _ e hread, if_pos rfl]
          rfl

-- key ids that are keys of a dict, and keys of the size that Ed25519 has
structure Sound (store : TrustStore) : Prop where
  distinct : Dict.Distinct store.keys
  keys : ∀ k ∈ store.keys, k.1 ≠ [] ∧ k.2.raw.length = 32

def Unpaired (store : TrustStore) : Prop := ∀ k ∈ store.keys, Python.Unpaired k.1

theorem readKeys_distinct {items : PyDict} {keys : List (Str × PublicKey)}
    (h : items.mapM readKey = .ok keys) (hd : Dict.Distinct items) : Dict.Distinct keys := by
  induction items generalizing keys with
  | nil =>
      obtain rfl := Except.ok.inj h
      exact List.Pairwise.nil
  | cons m items ih =>
      simp only [List.mapM_cons, bind_eq_ok] at h
      obtain ⟨k, hk, ks, hks, h⟩ := h
      obtain rfl := Except.ok.inj h
      obtain ⟨hm, hrest⟩ := List.pairwise_cons.mp hd
      refine List.pairwise_cons.mpr ⟨fun k' hk' => ?_, ih hks hrest⟩
      obtain ⟨m', hm', hread⟩ := mem_of_mapM_eq_ok hks hk'
      have hsame := hm m' hm'
      rwa [(readKey_eq_ok.mp hk).1, (readKey_eq_ok.mp hread).1, same_str] at hsame

theorem ofTree_eq_dict {t : Json} {d : PyDict} (h : PyVal.ofTree t = .dict d) :
    ∃ ms, t = .obj ms ∧ d = Dict.update [] (PyVal.ofTreeMembers ms) := by
  cases t with
  | obj ms => exact ⟨ms, rfl, (PyVal.dict.inj h).symm⟩
  | _ => cases h

theorem of_get_ofTree {ms : List (Str × Json)} {name : Str} {v : PyVal}
    (h : PyDict.get (Dict.update [] (PyVal.ofTreeMembers ms)) name = some v) :
    ∃ m ∈ ms, PyVal.ofTree m.2 = v := by
  obtain ⟨-, k, hk⟩ := PyVal.mem_update (mem_of_get_str h)
  rw [List.nil_append, PyVal.ofTreeMembers_eq_map] at hk
  obtain ⟨m, hm, heq⟩ := List.mem_map.mp hk
  exact ⟨m, hm, (Prod.mk.inj heq).2⟩

theorem unpaired_items {t : Json} (ht : t.EachStr Python.Unpaired) {d items : PyDict}
    (hd : PyVal.ofTree t = .dict d) {name : Str} (hitems : d.getD name = .dict items) :
    Dict.Distinct items ∧ ∀ s v, (.str s, v) ∈ items → Python.Unpaired s := by
  obtain ⟨ms, rfl, rfl⟩ := ofTree_eq_dict hd
  have hget : PyDict.get (Dict.update [] (PyVal.ofTreeMembers ms)) name = some (.dict items) := by
    unfold PyDict.getD at hitems
    cases hv : PyDict.get (Dict.update [] (PyVal.ofTreeMembers ms)) name with
    | none =>
        rw [hv] at hitems
        cases hitems
    | some v =>
        rw [hv] at hitems
        exact congrArg some hitems
  obtain ⟨m, hm, hmv⟩ := of_get_ofTree hget
  obtain ⟨ns, hns, rfl⟩ := ofTree_eq_dict hmv
  have hspelled := (Json.eachStrMembers_iff.mp ht m hm).2
  rw [hns] at hspelled
  refine ⟨Dict.distinct_update List.Pairwise.nil _, fun s v hsv => ?_⟩
  obtain ⟨⟨w, hw⟩, -⟩ := PyVal.mem_update hsv
  rw [List.nil_append, PyVal.ofTreeMembers_eq_map] at hw
  obtain ⟨n, hn, heq⟩ := List.mem_map.mp hw
  rw [← PyKey.str.inj (Prod.mk.inj heq).1]
  exact (Json.eachStrMembers_iff.mp hspelled n hn).1

theorem of_load (h : load P text = .ok store) : store.Sound ∧ store.Unpaired := by
  obtain ⟨t, ht, hread⟩ := load_eq_ok.mp h
  obtain ⟨d, items, revoked, keys, hd, -, -, hitems, -, hkeys, hstore⟩ := read_eq_ok.mp hread
  obtain ⟨hstored, -, -⟩ := ofKeys_eq_ok.mp hstore
  obtain ⟨hdistinct, hspelled⟩ :=
    unpaired_items (parseDocument_spelled ht (Json.clean_lit text)) hd hitems
  have hkeysDistinct := readKeys_distinct hkeys hdistinct
  rw [Dict.update_nil_of_distinct hkeysDistinct] at hstored
  have hread : ∀ k ∈ store.keys, ∃ m ∈ items, readKey m = .ok k :=
    fun k hk => mem_of_mapM_eq_ok hkeys (hstored ▸ hk)
  refine ⟨⟨hstored ▸ hkeysDistinct, fun k hk => ?_⟩, fun k hk => ?_⟩
  · obtain ⟨m, -, hm⟩ := hread k hk
    obtain ⟨-, hid, encoded, -, -, hlength⟩ := readKey_eq_ok.mp hm
    exact ⟨hid, hlength⟩
  · obtain ⟨m, hmem, hm⟩ := hread k hk
    obtain ⟨hkey, -⟩ := readKey_eq_ok.mp hm
    exact hspelled k.1 m.2 (by rwa [← hkey])

theorem ofTree_tree (hs : store.Sound) : PyVal.ofTree store.tree = .dict (PyDict.ofFields
    [("keys", .dict ((sortedItems store.keys).map
      (fun k => (.str k.1, .str (b64encode k.2.raw))))),
    ("revoked", strList (sortedStrs store.revoked))]) := by
  have hkeys : Dict.Distinct ((sortedItems store.keys).map
      (fun k => (PyKey.str k.1, PyVal.str (b64encode k.2.raw)))) := by
    refine List.pairwise_map.mpr ((distinct_sortedItems hs.distinct).imp fun h => ?_)
    rwa [same_str]
  have hrevoked : ∀ ids : List Str, PyVal.ofTreeItems (ids.map .str) = ids.map .str := by
    intro ids
    induction ids with
    | nil => rfl
    | cons id ids ih => rw [List.map_cons, PyVal.ofTreeItems, ih]; rfl
  have hmembers : PyVal.ofTreeMembers ((sortedItems store.keys).map
      (fun k => (k.1, .str (b64encode k.2.raw)))) = (sortedItems store.keys).map
        (fun k => (PyKey.str k.1, PyVal.str (b64encode k.2.raw))) := by
    rw [PyVal.ofTreeMembers_eq_map, List.map_map]
    rfl
  have hnames : Keyed.same (PyKey.str (lit "keys")) (.str (lit "revoked")) = false := by decide
  rw [tree, PyVal.ofTree, PyVal.ofTreeMembers, PyVal.ofTreeMembers, PyVal.ofTreeMembers,
    Dict.update_nil_of_distinct (List.pairwise_pair.mpr hnames)]
  simp only [PyVal.ofTree, hmembers, hrevoked, Dict.update_nil_of_distinct hkeys]
  rfl

theorem eachStr_tree (hu : store.Unpaired) : store.tree.EachStr Python.Unpaired := by
  refine Json.eachStrMembers_iff.mpr (List.forall_mem_cons.mpr ⟨⟨?_, ?_⟩,
    List.forall_mem_cons.mpr ⟨⟨?_, ?_⟩, nofun⟩⟩)
  · exact (Json.clean_lit "keys").unpaired
  · refine Json.eachStrMembers_iff.mpr fun m hm => ?_
    obtain ⟨k, hk, rfl⟩ := List.mem_map.mp hm
    refine ⟨hu k (mem_sortedItems.mp hk), Json.Clean.unpaired fun p hp => ?_⟩
    have := ascii_b64encode k.2.raw p hp
    exact decide_eq_false (by omega)
  · exact (Json.clean_lit "revoked").unpaired
  · refine Json.eachStrItems_iff.mpr fun x hx => ?_
    obtain ⟨id, hid, rfl⟩ := List.mem_map.mp hx
    have hhas := store.revokedKnown id ((List.mem_insertionSort _).mp hid)
    obtain ⟨key, hkey⟩ := Option.isSome_iff_exists.mp hhas
    exact hu _ (Dict.mem_of_get hkey)

theorem dump_eq (hroom : 2 ≤ P.recursionLimit) (store : TrustStore) :
    ∃ text, store.dump P = .ok text ∧ lit text = store.tree.render fileStyle := by
  obtain ⟨depth, hdepth⟩ := Nat.exists_eq_add_of_le' hroom
  have hclean : (encode (store.tree.render fileStyle)).isSome = true := by
    rw [encode_isSome, List.all_eq_true]
    intro p hp
    rw [Json.not_surrogate_of_printable (Json.render_printable rfl store.tree p hp)]
    rfl
  obtain ⟨text, htext⟩ := Option.isSome_iff_exists.mp hclean
  refine ⟨text, ?_, (encode_eq_some.mp htext).symm⟩
  simp only [dump, Interpreter.dumps, hdepth, toTree_toDict, htext, bind, Except.bind]

theorem readKey_written {k : Str × PublicKey} (hid : k.1 ≠ []) (hlength : k.2.raw.length = 32) :
    readKey (.str k.1, .str (b64encode k.2.raw)) = .ok k :=
  readKey_eq_ok.mpr ⟨rfl, hid, _, rfl, b64decode_b64encode _, hlength⟩

theorem load_dump (hroom : 2 ≤ P.recursionLimit) (hs : store.Sound) (hu : store.Unpaired)
    (h : store.dump P = .ok text) :
    ∃ store', load P text = .ok store' ∧ store'.keys = sortedItems store.keys ∧
      store'.revoked = (sortedStrs store.revoked).dedup := by
  obtain ⟨depth, hdepth⟩ := Nat.exists_eq_add_of_le' hroom
  obtain ⟨text', htext', hrender⟩ := dump_eq hroom store
  obtain rfl := Except.ok.inj (h.symm.trans htext')
  have hparse := Json.parseDocument_renderWith_hear fileStyle reprFormat
    (PyVal.toTree_readable (toTree_toDict store depth))
  rw [Json.renderWith_repr, ← hrender, Json.readWith_repr, fileStyle,
    Json.hear_self (eachStr_tree hu), ← hdepth] at hparse
  have hkeys : ((sortedItems store.keys).map (fun k => (PyKey.str k.1,
      PyVal.str (b64encode k.2.raw)))).mapM readKey = .ok (sortedItems store.keys) := by
    refine mapM_map_eq_self fun k hk => ?_
    obtain ⟨hid, hlength⟩ := hs.keys k (mem_sortedItems.mp hk)
    exact readKey_written hid hlength
  have hknown : ∀ k ∈ sortedStrs store.revoked, Dict.has (sortedItems store.keys) k = true := by
    intro k hk
    rw [Dict.has, get_sortedItems hs.distinct]
    exact store.revokedKnown k ((List.mem_insertionSort _).mp hk)
  refine ⟨⟨sortedItems store.keys, (sortedStrs store.revoked).dedup,
    fun k hk => hknown k (List.mem_dedup.mp hk)⟩, load_eq_ok.mpr ⟨store.tree, hparse, ?_⟩, rfl, rfl⟩
  refine read_eq_ok.mpr ⟨_, _, sortedStrs store.revoked, _, ofTree_tree hs,
    by simp [PyDict.hasOnly, PyDict.ofFields], by simp [PyDict.hasAll, PyDict.has], PyDict.getD_of_get (by simp), ?_, hkeys, ?_⟩
  · rw [PyDict.getD_of_get (v := strList (sortedStrs store.revoked)) (by simp)]
    exact revokedIds_strList _
  rw [Dict.update_nil_of_distinct (distinct_sortedItems hs.distinct)]
  exact ofKeys_eq_ok.mpr ⟨rfl, rfl, hknown⟩

end Reading

end TrustStore

namespace TrustStore

-- what the answers of a store depend on: a revoked key id does not show its key
structure Alike (a b : TrustStore) : Prop where
  has : ∀ k, Dict.has a.keys k = Dict.has b.keys k
  revoked : ∀ k, k ∈ a.revoked ↔ k ∈ b.revoked
  resolve : ∀ k, a.resolve k = b.resolve k

variable {a b store store' : TrustStore} {c : StoreCall}

theorem alike_sorted (hs : store.Sound) (hkeys : store'.keys = sortedItems store.keys)
    (hrevoked : store'.revoked = (sortedStrs store.revoked).dedup) : store.Alike store' := by
  have hget : ∀ k, Dict.get store'.keys k = Dict.get store.keys k :=
    fun k => by rw [hkeys, get_sortedItems hs.distinct]
  have hmem : ∀ k, k ∈ store.revoked ↔ k ∈ store'.revoked := by
    intro k
    rw [hrevoked, List.mem_dedup, sortedStrs, List.mem_insertionSort]
  refine ⟨fun k => ?_, hmem, fun k => ?_⟩
  · rw [Dict.has, Dict.has, hget]
  · simp only [TrustStore.resolve, hmem k, hget]

-- a change is accepted or refused alike by stores that are alike
theorem Alike.change (h : Alike a b) (c : StoreCall) :
    (∃ e, c.change a = .error e ∧ c.change b = .error e) ∨
      ∃ a' b', c.change a = .ok a' ∧ c.change b = .ok b' ∧ Alike a' b' := by
  cases c with
  | add keyId key size =>
      by_cases hid : keyId = []
      · exact Or.inl ⟨_, if_pos hid, if_pos hid⟩
      · by_cases hold : Dict.has a.keys keyId = true ∧ keyId ∉ a.revoked
        · have hold' : Dict.has b.keys keyId = true ∧ keyId ∉ b.revoked := by
            rwa [← h.has, ← h.revoked]
          refine Or.inl ⟨.valueError (lit "issuer key already exists: " ++ keyId), ?_, ?_⟩
          · rw [StoreCall.change, add, if_neg hid, if_pos hold]
          · rw [StoreCall.change, add, if_neg hid, if_pos hold']
        · have hfree : Dict.has a.keys keyId = true → keyId ∈ a.revoked :=
            fun hhas => not_not.mp fun hrevoked => hold ⟨hhas, hrevoked⟩
          have hfree' : Dict.has b.keys keyId = true → keyId ∈ b.revoked := by
            rwa [← h.has, ← h.revoked]
          obtain ⟨a', ha⟩ := add_isOk key hid hfree
          obtain ⟨b', hb⟩ := add_isOk key hid hfree'
          obtain ⟨-, -, hkeys, hrevoked⟩ := add_eq_ok ha
          obtain ⟨-, -, hkeys', hrevoked'⟩ := add_eq_ok hb
          refine Or.inr ⟨a', b', ha, hb, fun k => ?_, fun k => ?_, fun k => ?_⟩
          · rw [hkeys, hkeys', Dict.has_set_eq, Dict.has_set_eq, h.has]
          · rw [hrevoked, hrevoked', List.mem_filter, List.mem_filter, h.revoked]
          · rw [resolve_of_add ha, resolve_of_add hb, h.resolve]
  | revoke keyId =>
      by_cases hhas : Dict.has a.keys keyId = true
      · have hhas' := (h.has keyId).symm.trans hhas
        obtain ⟨a', ha⟩ : ∃ a', a.revoke keyId = .ok a' := ⟨_, dif_pos hhas⟩
        obtain ⟨b', hb⟩ : ∃ b', b.revoke keyId = .ok b' := ⟨_, dif_pos hhas'⟩
        refine Or.inr ⟨a', b', ha, hb, fun k => ?_, fun k => ?_, fun k => ?_⟩
        · rw [(revoke_eq_ok ha).1, (revoke_eq_ok hb).1, h.has]
        · rw [mem_revoked_of_revoke ha, mem_revoked_of_revoke hb, h.revoked]
        · rw [resolve_of_revoke ha, resolve_of_revoke hb, h.resolve]
      · exact Or.inl ⟨_, dif_neg hhas, dif_neg (by rwa [← h.has])⟩

theorem Sound.change (hs : store.Sound) (h : c.change store = .ok store') : store'.Sound := by
  cases c with
  | add keyId key size =>
      obtain ⟨hid, -, hkeys, -⟩ := add_eq_ok h
      refine ⟨hkeys ▸ Dict.distinct_set hs.distinct keyId key, fun k hk => ?_⟩
      rw [hkeys] at hk
      rcases Dict.mem_set hk with hk | ⟨hv, hkey | ⟨w, hw⟩⟩
      · exact hs.keys k hk
      · exact ⟨hkey ▸ hid, hv ▸ size⟩
      · exact ⟨(hs.keys _ hw).1, hv ▸ size⟩
  | revoke keyId =>
      have hkeys := (revoke_eq_ok h).1
      exact ⟨hkeys ▸ hs.distinct, fun k hk => hs.keys k (hkeys ▸ hk)⟩

theorem unpaired_change (hu : store.Unpaired) (h : c.change store = .ok store') :
    store'.Unpaired ↔ c.Unpaired := by
  cases c with
  | add keyId key size =>
      obtain ⟨-, -, hkeys, -⟩ := add_eq_ok h
      rw [Unpaired, hkeys]
      constructor
      · intro hall
        have hget : Dict.get (Dict.set store.keys keyId key) keyId = some key := by
          rw [Dict.get_set_eq, if_pos rfl]
        exact hall _ (Dict.mem_of_get hget)
      · intro hid k hk
        rcases Dict.mem_set hk with hk | ⟨-, hkey | ⟨w, hw⟩⟩
        · exact hu k hk
        · exact hkey ▸ hid
        · exact hu (k.1, w) hw
  | revoke keyId =>
      have hkeys := (revoke_eq_ok h).1
      exact iff_of_true (fun k hk => hu k (hkeys ▸ hk)) trivial

-- a refused call has named no new key id
theorem unpaired_of_refused {e : Exc} (hu : store.Unpaired) (h : c.change store = .error e) :
    c.Unpaired := by
  cases c with
  | add keyId key size =>
      by_cases hhas : Dict.has store.keys keyId = true
      · obtain ⟨key', hkey⟩ := Option.isSome_iff_exists.mp hhas
        exact hu _ (Dict.mem_of_get hkey)
      · by_cases hid : keyId = []
        · exact hid ▸ trivial
        · obtain ⟨store', hadd⟩ := add_isOk key hid (fun h => absurd h hhas)
          rw [StoreCall.change, hadd] at h
          cases h
  | revoke keyId => trivial

end TrustStore

namespace TrustFile

section Runs

variable {P : Primitives} {s t : TrustFile} {c : StoreCall}

theorem call_cases (hroom : 2 ≤ P.recursionLimit) (s : TrustFile) (c : StoreCall) :
    (∃ e, c.change s.store = .error e ∧ s.call P c = (s, .error e)) ∨
      ∃ store text, c.change s.store = .ok store ∧ store.dump P = .ok text ∧
        s.call P c = (⟨store, some text⟩, .ok ()) := by
  cases hchange : c.change s.store with
  | error e => exact Or.inl ⟨e, rfl, by rw [call, hchange]⟩
  | ok store =>
      obtain ⟨text, hdump, -⟩ := TrustStore.dump_eq hroom store
      exact Or.inr ⟨store, text, rfl, hdump, by simp only [call, hchange, hdump]⟩

theorem call_alike (hroom : 2 ≤ P.recursionLimit) (h : s.store.Alike t.store) (c : StoreCall) :
    (s.call P c).2 = (t.call P c).2 ∧ (step P s c).store.Alike (step P t c).store := by
  unfold step
  rcases h.change c with ⟨e, hs, ht⟩ | ⟨a, b, hs, ht, hab⟩
  · have hscall : s.call P c = (s, .error e) := by rw [call, hs]
    have htcall : t.call P c = (t, .error e) := by rw [call, ht]
    rw [hscall, htcall]
    exact ⟨rfl, h⟩
  · obtain ⟨text, hdump, -⟩ := TrustStore.dump_eq hroom a
    obtain ⟨text', hdump', -⟩ := TrustStore.dump_eq hroom b
    simp only [call, hs, ht, hdump, hdump']
    exact ⟨trivial, hab⟩

theorem indistinct_of_alike (hroom : 2 ≤ P.recursionLimit) (h : s.store.Alike t.store) :
    Indistinct P s t := by
  have hrun : ∀ calls, (Calls.run (step P) s calls).store.Alike
      (Calls.run (step P) t calls).store := by
    intro calls
    induction calls generalizing s t with
    | nil => exact h
    | cons c calls ih => exact ih (call_alike hroom h c).2
  exact ⟨fun calls k => (hrun calls).resolve k, fun calls c => (call_alike hroom (hrun calls) c).1⟩

-- what an object has in memory is what its file was read from or written with
structure Settled (P : Primitives) (s : TrustFile) : Prop where
  sound : s.store.Sound
  file : construct P s.file = .ok s.store ∨ ∃ text, s.store.dump P = .ok text ∧ s.file = some text

theorem of_construct {file : Option String} {store : TrustStore}
    (h : construct P file = .ok store) : store.Sound ∧ store.Unpaired := by
  cases file with
  | none =>
      obtain rfl := Except.ok.inj h
      exact ⟨⟨List.Pairwise.nil, nofun⟩, nofun⟩
  | some text => exact TrustStore.of_load h

theorem Settled.step (hroom : 2 ≤ P.recursionLimit) (h : Settled P s) (c : StoreCall) :
    Settled P (step P s c) := by
  unfold TrustFile.step
  rcases call_cases hroom s c with ⟨e, -, hcall⟩ | ⟨store, text, hchange, hdump, hcall⟩
  · rwa [hcall]
  · rw [hcall]
    exact ⟨h.sound.change hchange, Or.inr ⟨text, hdump, rfl⟩⟩

theorem Settled.reopens_iff (hroom : 2 ≤ P.recursionLimit) (h : Settled P s) :
    Reopens P s ↔ s.store.Unpaired := by
  constructor
  · rintro ⟨store, hopen, hsame⟩ k hk
    -- revoke asks whether the reopened store has the key id
    have hhas : Dict.has s.store.keys k.1 = true := by
      rw [Dict.has, Dict.get_of_mem h.sound.distinct hk (by simp [same_list])]
      rfl
    have hanswer := hsame.answers [] (.revoke k.1)
    rw [Calls.run_nil, Calls.run_nil] at hanswer
    rcases call_cases hroom s (.revoke k.1) with ⟨e, hchange, -⟩ | ⟨_, _, -, -, hcall⟩
    · rw [StoreCall.change, TrustStore.revoke, dif_pos hhas] at hchange
      cases hchange
    · rw [hcall] at hanswer
      rcases call_cases hroom ⟨store, s.file⟩ (.revoke k.1) with
        ⟨e, -, hcall'⟩ | ⟨store', _, hchange', -, -⟩
      · rw [hcall'] at hanswer
        cases hanswer
      · obtain ⟨key, hkey⟩ := Option.isSome_iff_exists.mp (TrustStore.known_of_revoke hchange')
        exact (of_construct hopen).2 (k.1, key) (Dict.mem_of_get hkey)
  · intro hu
    rcases h.file with hopen | ⟨text, hdump, hfile⟩
    · exact ⟨s.store, hopen, fun _ _ => rfl, fun _ _ => rfl⟩
    · obtain ⟨store, hload, hkeys, hrevoked⟩ := TrustStore.load_dump hroom h.sound hu hdump
      rw [Reopens, hfile]
      exact ⟨store, hload, indistinct_of_alike hroom (TrustStore.alike_sorted h.sound hkeys hrevoked)⟩

theorem Settled.unpaired_step (hroom : 2 ≤ P.recursionLimit) (hu : s.store.Unpaired)
    (c : StoreCall) : (TrustFile.step P s c).store.Unpaired ↔ c.Unpaired := by
  unfold TrustFile.step
  rcases call_cases hroom s c with ⟨e, hchange, hcall⟩ | ⟨store, text, hchange, -, hcall⟩
  · rw [hcall]
    exact iff_of_true hu (TrustStore.unpaired_of_refused hu hchange)
  · rw [hcall]
    exact TrustStore.unpaired_change hu hchange

theorem persistent_iff (hroom : 2 ≤ P.recursionLimit) {file : Option String} {store : TrustStore}
    (hopen : construct P file = .ok store) (calls : List StoreCall) :
    (∀ before after, calls = before ++ after →
      Persistent P (Calls.run (step P) ⟨store, file⟩ before)) ↔ ∀ c ∈ calls, c.Unpaired := by
  obtain ⟨hs, hu⟩ := of_construct hopen
  have hsettled : Settled P ⟨store, file⟩ := ⟨hs, Or.inl hopen⟩
  have heach : (∀ c ∈ calls, c.Unpaired) ↔
      Calls.Each (step P) (fun _ c => c.Unpaired) ⟨store, file⟩ calls := by
    clear hopen hs hu hsettled
    generalize (⟨store, file⟩ : TrustFile) = s
    induction calls generalizing s with
    | nil => exact iff_of_true nofun trivial
    | cons c calls ih => rw [List.forall_mem_cons, Calls.Each, ih]
  have hproper : Calls.Each (step P) (fun _ _ => True) ⟨store, file⟩ calls :=
    Calls.each_of fun _ _ => trivial
  rw [heach, ← Calls.always_iff_of (I := Settled P) (A := fun s => s.store.Unpaired)
    (fun s c h _ => h.step hroom c)
    (fun s c _ _ hu => Settled.unpaired_step hroom hu c) hproper
    hsettled hu]
  refine forall₃_congr fun before after _ => ?_
  have hrun : Settled P (Calls.run (step P) ⟨store, file⟩ before) :=
    Calls.always (fun s c h => h.step hroom c) before hsettled
  rw [← hrun.reopens_iff hroom]
  exact ⟨fun h => h.reopens, fun h => ⟨h, fun k hk => TrustStore.revokedKnown _ k hk⟩⟩

theorem trust_store_persists_iff (P : Primitives) (hroom : 2 ≤ P.recursionLimit) :
    (∀ file store calls, construct P file = .ok store →
      ((∀ before after, calls = before ++ after →
        Persistent P (Calls.run (step P) ⟨store, file⟩ before)) ↔
          ∀ c ∈ calls, c.Unpaired)) ∧
    (∀ text, ((∃ store, construct P (some text) = .ok store) ∨
        ∃ message, construct P (some text) = .error (.valueError message)) ↔
      parseDocument P.recursionLimit (lit text) ≠ .error .tooDeep) ∧
    ∀ key : PublicKey, key.raw.length = 32 → b64decode (b64encode key.raw) = .ok key.raw := by
  exact ⟨fun file store calls hopen => persistent_iff hroom hopen calls,
    fun text => TrustStore.load_outcome, fun key _ => b64decode_b64encode key.raw⟩

def reviewerKey : PublicKey := ⟨List.replicate 32 7⟩

def addsReviewer : StoreCall := .add "reviewer" reviewerKey rfl

theorem trust_store_persists_reviewer :
    (∀ before after, [addsReviewer, .revoke "reviewer", addsReviewer] = before ++ after →
      Persistent referencePrimitives
        (Calls.run (step referencePrimitives) ⟨.empty, none⟩ before)) ∧
    b64decode (b64encode reviewerKey.raw) = .ok reviewerKey.raw := by
  obtain ⟨hruns, -, hcodec⟩ := trust_store_persists_iff referencePrimitives (by decide)
  have hid : Unpaired (lit "reviewer") := (Json.clean_lit "reviewer").unpaired
  refine ⟨(hruns none .empty _ rfl).mpr ?_, hcodec reviewerKey rfl⟩
  intro c hc
  simp only [List.mem_cons, List.not_mem_nil, or_false] at hc
  rcases hc with rfl | rfl | rfl
  · exact hid
  · trivial
  · exact hid

theorem skipSpace_open (n : Nat) (rest : Str) :
    skipSpace (List.replicate (n + 1) (ofChar '[') ++ rest) =
      List.replicate (n + 1) (ofChar '[') ++ rest := by
  have hspace : isSpace (ofChar '[') = false := by decide
  rw [List.replicate_succ, List.cons_append, skipSpace, List.dropWhile_cons, hspace]
  rfl

theorem parseValue_open (depth : Nat) : ∀ (fuel : Nat) (rest : Str), 2 * depth < fuel →
    parseValue depth fuel (List.replicate (depth + 1) (ofChar '[') ++ rest) = .error .tooDeep := by
  have hquote : ¬ ofChar '[' = ofChar '"' := by decide
  have hclose : ¬ some (ofChar '[') = some (ofChar ']') := by decide
  induction depth with
  | zero =>
      intro fuel rest hfuel
      cases fuel with
      | zero => omega
      | succ fuel =>
          rw [parseValue.eq_def]
          simp [hquote]
  | succ depth ih =>
      intro fuel rest hfuel
      obtain ⟨fuel, rfl⟩ := Nat.exists_eq_add_of_lt (show 2 < fuel by omega)
      have hrest := ih (fuel + 1) rest (by omega)
      rw [List.replicate_succ, List.cons_append, show 2 + fuel + 1 = fuel + 1 + 1 + 1 by omega,
        parseValue.eq_def]
      simp only [if_neg hquote, if_true, skipSpace_open]
      rw [if_neg (by rw [List.replicate_succ, List.cons_append, List.head?_cons]; exact hclose),
        parseItems, hrest]
      rfl

def pairedId : Str := [0xD800, 0xDC00]

-- a document nested more deeply than the reader goes, and a key id that json writes as a pair
theorem trust_store_not_persistent :
    (¬ ∀ (P : Primitives) (text : String), (∃ store, construct P (some text) = .ok store) ∨
      ∃ message, construct P (some text) = .error (.valueError message)) ∧
    ¬ ∀ (P : Primitives) (file : Option String) (store : TrustStore) (calls : List StoreCall),
      construct P file = .ok store → ∀ before after, calls = before ++ after →
        Persistent P (Calls.run (step P) ⟨store, file⟩ before) := by
  constructor
  · intro h
    refine TrustStore.load_outcome.mp
      (h referencePrimitives (String.ofList (List.replicate 101 '['))) ?_
    have htext : lit (String.ofList (List.replicate 101 '[')) =
        List.replicate 101 (ofChar '[') ++ [] := by
      rw [lit, String.toList_ofList, List.map_replicate, List.append_nil]
    rw [htext, parseDocument, skipSpace_open 100, show referencePrimitives.recursionLimit = 100 from rfl,
      parseValue_open 100 _ [] (by simp)]
    rfl
  · intro h
    have hpaired := (persistent_iff (P := referencePrimitives) (by decide) rfl
      [.add pairedId reviewerKey rfl]).mp (h referencePrimitives none .empty _ rfl)
    have hid : Python.Unpaired pairedId := hpaired _ List.mem_cons_self
    exact absurd (hid.1 (by decide)) (by decide)

end Runs

end TrustFile

end GovernedAutonomy
