import GovernedAutonomy.JwksProvider
import GovernedAutonomy.Python.Congruence

namespace GovernedAutonomy

open Python Protocol Oidc

namespace OIDCValidator

variable {Key : Type} {kind : Key → KeyKind} {V : OIDCValidator} {C : Cryptography Key}
  {P : Primitives} {token : Str} {nonce : Option Str} {now : ℚ} {jwks : JWKSAnswers}
  {identity : ExternalIdentity}

theorem not_escapes_of_validate (h : V.validate C P token nonce now jwks = .ok identity) :
    ¬ V.Escapes P token nonce now := by
  intro hescapes
  obtain ⟨e, he, -⟩ : ∃ e, V.validate C P token nonce now jwks = .error e ∧
      isIdentityError e = false := V.validate_escapes C P hescapes
  rw [h] at he
  cases he

theorem accepts_of_ok (hC : C.Documented kind)
    (h : V.validate C P token nonce now jwks = .ok identity) :
    V.Accepts C P token nonce now jwks identity :=
  V.accepts_of_validate C P hC (not_escapes_of_validate h) h

end OIDCValidator

namespace Reading

variable {a b c : Reading}

theorem le_refl (a : Reading) : a ≤ a := show a.seconds ≤ a.seconds from Preorder.le_refl _

theorem le_trans (h : a ≤ b) (h' : b ≤ c) : a ≤ c :=
  show a.seconds ≤ c.seconds from Preorder.le_trans _ _ _ h h'

end Reading

namespace Oidc

variable {P : Primitives} {response : EndpointResponse} {got : FetchedKeys}

theorem document_eq_ok {subject service : String} {limit : Nat} {value : PyVal}
    (h : response.document P subject service limit = .ok value) :
    ∃ body, response = .served body ∧ body.length ≤ limit ∧ P.loadsBytes body = .ok value := by
  cases response with
  | failed => cases h
  | served body =>
      rw [EndpointResponse.document] at h
      split_ifs at h with hlimit
      have hbounded : body.length ≤ limit := by
        rw [List.length_take] at hlimit
        omega
      rw [reraise_eq_ok, List.take_of_length_le (by omega)] at h
      exact ⟨body, rfl, hbounded, h⟩

-- the keys of a document with the digest of their text
def HasFingerprint (P : Primitives) (document : PyDict) (digest : Str) : Prop :=
  ∃ keys, signingKeysById document = .ok keys ∧ fingerprint P keys = .ok digest

theorem fetched_eq_ok (h : fetched P response = .ok got) :
    ∃ body, response = .served body ∧ JwksEvent.Served P body got.document ∧
      HasFingerprint P got.document got.fingerprint := by
  obtain ⟨value, hvalue, h⟩ := bind_eq_ok.mp h
  obtain ⟨body, hbody, hbounded, hread⟩ := document_eq_ok hvalue
  obtain ⟨document, hdocument, h⟩ := bind_eq_ok.mp h
  obtain ⟨keys, hkeys, h⟩ := bind_eq_ok.mp h
  obtain ⟨digest, hdigest, h⟩ := bind_eq_ok.mp h
  obtain rfl := Except.ok.inj h
  split at hdocument
  · obtain rfl := Except.ok.inj hdocument
    exact ⟨body, hbody, ⟨hbounded, hread, keys, hkeys⟩, keys, hkeys, hdigest⟩
  · cases hdocument

-- a validation that finds no key has asked twice
theorem signingKey_eq_none {jwks : JWKSAnswers} {kid : Str}
    (h : signingKey jwks kid = .ok none) :
    (∃ keys, keysOf jwks.first = .ok keys ∧ Dict.has keys kid = false) ∧
      jwks.refresh.getD (.ok ()) = .ok () ∧ ∃ document, jwks.second = .ok (.dict document) := by
  obtain ⟨keys, hkeys, h⟩ := bind_eq_ok.mp h
  split at h
  · cases h
  · next hnone =>
      obtain ⟨_, hrefresh, h⟩ := bind_eq_ok.mp h
      obtain ⟨keys', hkeys', -⟩ := bind_eq_ok.mp h
      obtain ⟨document, -, hsecond, -⟩ := listed_keysOf hkeys'
      refine ⟨⟨keys, hkeys, ?_⟩, hrefresh, document, hsecond⟩
      rw [Dict.has, hnone]
      rfl

end Oidc

theorem JwksEvent.Current.mono {provider : UrlJWKSProvider} {before before' : List JwksEvent}
    {v : OpenValidation} {now now' : Reading} {document : PyDict}
    (h : Current provider before v now document) (hbefore : ∀ e ∈ before, e ∈ before')
    (hnow : now ≤ now') : Current provider before' v now' document := by
  obtain ⟨body, stored, asked, hstored, hlive, hbegan, hasked, hage⟩ := h
  exact ⟨body, stored, asked, hbefore _ hstored, hlive, hbegan, Reading.le_trans hasked hnow, hage⟩

namespace ValidationPhase

def holdsLock : ValidationPhase → Bool
  | .fetching _ _ => true
  | .storing _ _ _ _ => true
  | _ => false

end ValidationPhase

namespace JwksWorld

open JwksEvent

section Invariant

variable (P : Primitives) (provider : UrlJWKSProvider)

def StoredSince (trace : List JwksEvent) (v : OpenValidation) (document : PyDict) : Prop :=
  ∃ body stored, .stored body document stored ∈ trace ∧ v.began ≤ stored

-- what is known of the documents that a validation has been answered
def Heard (trace : List JwksEvent) (clock : Reading) (v : OpenValidation) : KeyQuestion → Prop
  | .first => True
  | .refresh first => Current provider trace v clock first
  | .second first =>
      Current provider trace v clock first ∧ ∃ document, StoredSince trace v document

structure Asking (trace : List JwksEvent) (clock : Reading) (v : OpenValidation)
    (question : KeyQuestion) : Prop where
  began : v.began ≤ clock
  heard : Heard provider trace clock v question

def PhaseSound (trace : List JwksEvent) (clock : Reading) : ValidationPhase → Prop
  | .idle => True
  | .waiting v question => Asking provider trace clock v question
  | .fetching v question => Asking provider trace clock v question
  | .storing v question body got =>
      Asking provider trace clock v question ∧ fetched P (.served body) = .ok got

-- the document of the cache is the last that was stored
structure Latest (cache : JwksCache) (trace : List JwksEvent) (document : PyDict)
    (body : List UInt8) (stored : Reading) : Prop where
  mem : .stored body document stored ∈ trace
  expires : cache.expiresAt = stored.plus provider.cacheSeconds
  last : ∀ body' document' stored', .stored body' document' stored' ∈ trace → stored' ≤ stored

-- a document that was stored, or dropped because it could not be copied
def Seen (trace : List JwksEvent) (document : PyDict) : Prop :=
  ∃ body, (∃ stored, .stored body document stored ∈ trace) ∨ .dropped body document ∈ trace

def SeenWith (trace : List JwksEvent) (digest : Str) : Prop :=
  ∃ document, Seen trace document ∧ HasFingerprint P document digest

structure CacheSound (cache : JwksCache) (trace : List JwksEvent) (clock : Reading) : Prop where
  past : ∀ body document stored, .stored body document stored ∈ trace → stored ≤ clock
  latest : ∀ document, cache.jwks = some document →
    ∃ body stored, Latest provider cache trace document body stored
  fingerprinted : ∀ digest, cache.keyFingerprint = some digest → SeenWith P trace digest
  rotated : cache.lastRotatedAt ≠ 0 →
    ∃ digest digest', digest ≠ digest' ∧ SeenWith P trace digest ∧ SeenWith P trace digest'

variable {ι Key : Type} (V : OIDCValidator) (C : Cryptography Key)

-- the invariant of a world, but for what it says of one thread
structure Settled (i : ι) (w : JwksWorld ι) : Prop where
  justified : AllJustified P V C provider w.trace
  cache : CacheSound P provider w.cache w.trace w.clock
  phases : ∀ j, j ≠ i → PhaseSound P provider w.trace w.clock (w.phase j)
  exclusive : ∀ j, j ≠ i → (w.phase j).holdsLock = true → w.holder = some j

structure Sound (w : JwksWorld ι) : Prop where
  justified : AllJustified P V C provider w.trace
  cache : CacheSound P provider w.cache w.trace w.clock
  phases : ∀ i, PhaseSound P provider w.trace w.clock (w.phase i)
  exclusive : ∀ i, (w.phase i).holdsLock = true → w.holder = some i

end Invariant

variable {ι Key : Type} {P : Primitives} {V : OIDCValidator} {C : Cryptography Key}
  {provider : UrlJWKSProvider} {w : JwksWorld ι} {i : ι} {v : OpenValidation}
  {question : KeyQuestion} {document : PyDict} {answers : JWKSAnswers}
  {trace trace' : List JwksEvent} {clock clock' : Reading} {cache : JwksCache}

theorem StoredSince.mono (h : StoredSince trace v document) (htrace : ∀ e ∈ trace, e ∈ trace') :
    StoredSince trace' v document := by
  obtain ⟨body, stored, hmem, hbegan⟩ := h
  exact ⟨body, stored, htrace _ hmem, hbegan⟩

theorem SeenWith.mono {digest : Str} (h : SeenWith P trace digest)
    (htrace : ∀ e ∈ trace, e ∈ trace') : SeenWith P trace' digest := by
  obtain ⟨document, ⟨body, ⟨stored, hmem⟩ | hmem⟩, hdigest⟩ := h
  · exact ⟨document, ⟨body, .inl ⟨stored, htrace _ hmem⟩⟩, hdigest⟩
  · exact ⟨document, ⟨body, .inr (htrace _ hmem)⟩, hdigest⟩

theorem Asking.mono (h : Asking provider trace clock v question)
    (htrace : ∀ e ∈ trace, e ∈ trace') (hclock : clock ≤ clock') :
    Asking provider trace' clock' v question where
  began := Reading.le_trans h.began hclock
  heard := by
    cases question with
    | first => trivial
    | refresh first => exact Current.mono h.heard htrace hclock
    | second first =>
        obtain ⟨hfirst, document, hsince⟩ := h.heard
        exact ⟨hfirst.mono htrace hclock, document, hsince.mono htrace⟩

theorem PhaseSound.mono {phase : ValidationPhase} (h : PhaseSound P provider trace clock phase)
    (htrace : ∀ e ∈ trace, e ∈ trace') (hclock : clock ≤ clock') :
    PhaseSound P provider trace' clock' phase := by
  cases phase with
  | idle => trivial
  | waiting v question => exact Asking.mono h htrace hclock
  | fetching v question => exact Asking.mono h htrace hclock
  | storing v question body got => exact ⟨h.1.mono htrace hclock, h.2⟩

-- an event that stores nothing, and the time that passes, leave the cache as it is known
theorem CacheSound.mono (h : CacheSound P provider cache trace clock)
    (htrace : ∀ e ∈ trace, e ∈ trace') (hclock : clock ≤ clock')
    (hstored : ∀ body document stored, .stored body document stored ∈ trace' →
      .stored body document stored ∈ trace) : CacheSound P provider cache trace' clock' where
  past := fun body document stored hmem =>
    Reading.le_trans (h.past body document stored (hstored _ _ _ hmem)) hclock
  latest := by
    intro document hdocument
    obtain ⟨body, stored, hlatest⟩ := h.latest document hdocument
    exact ⟨body, stored, htrace _ hlatest.mem, hlatest.expires,
      fun _ _ _ hmem => hlatest.last _ _ _ (hstored _ _ _ hmem)⟩
  fingerprinted := fun digest hdigest => (h.fingerprinted digest hdigest).mono htrace
  rotated := by
    intro hrotated
    obtain ⟨digest, digest', hne, hdigest, hdigest'⟩ := h.rotated hrotated
    exact ⟨digest, digest', hne, hdigest.mono htrace, hdigest'.mono htrace⟩

theorem Sound.settled (h : w.Sound P provider V C) (i : ι) : Settled P provider V C i w where
  justified := h.justified
  cache := h.cache
  phases := fun j _ => h.phases j
  exclusive := fun j _ => h.exclusive j

-- the thread that holds the lock leaves it
theorem Sound.settled_of_holds (h : w.Sound P provider V C)
    (hholds : (w.phase i).holdsLock = true) : Settled P provider V C i w.release where
  justified := h.justified
  cache := h.cache
  phases := fun j _ => h.phases j
  exclusive := by
    intro j hj hbusy
    have hi := h.exclusive i hholds
    rw [h.exclusive j hbusy] at hi
    exact absurd (Option.some.inj hi) hj

section Steps

variable [DecidableEq ι]

theorem goTo_phase_self (phase : ValidationPhase) : (w.goTo i phase).phase i = phase := by
  rw [JwksWorld.goTo]
  exact Function.update_self ..

theorem goTo_phase_of_ne {j : ι} (hj : j ≠ i) (phase : ValidationPhase) :
    (w.goTo i phase).phase j = w.phase j := by
  rw [JwksWorld.goTo]
  exact Function.update_of_ne hj ..

theorem Settled.goTo (h : Settled P provider V C i w) {phase : ValidationPhase}
    (hphase : PhaseSound P provider w.trace w.clock phase)
    (hholds : phase.holdsLock = true → w.holder = some i) :
    (w.goTo i phase).Sound P provider V C where
  justified := h.justified
  cache := h.cache
  phases := by
    intro j
    by_cases hj : j = i
    · subst hj
      rw [goTo_phase_self]
      exact hphase
    · rw [goTo_phase_of_ne hj]
      exact h.phases j hj
  exclusive := by
    intro j hbusy
    by_cases hj : j = i
    · subst hj
      rw [goTo_phase_self] at hbusy
      exact hholds hbusy
    · rw [goTo_phase_of_ne hj] at hbusy
      exact h.exclusive j hj hbusy

end Steps

end JwksWorld

namespace JwksEvent

variable {Key : Type} {P : Primitives} {V : OIDCValidator} {C : Cryptography Key}
  {provider : UrlJWKSProvider} {trace : List JwksEvent} {event : JwksEvent}

theorem justified_concat (h : AllJustified P V C provider trace)
    (hevent : Justified P V C provider trace event) :
    AllJustified P V C provider (trace ++ [event]) := Calls.each_concat.mpr ⟨h, hevent⟩

end JwksEvent

namespace JwksWorld

open JwksEvent

variable {ι Key : Type} {kind : Key → KeyKind} {P : Primitives} {V : OIDCValidator}
  {C : Cryptography Key} {provider : UrlJWKSProvider} {w : JwksWorld ι} {i : ι}
  {v : OpenValidation} {question : KeyQuestion} {document : PyDict} {answers : JWKSAnswers}

theorem followed_of_answers (hC : C.Documented kind)
    (hfirst : ∀ document, answers.first = .ok (.dict document) →
      Current provider w.trace v w.clock document)
    (hsecond : ∀ document, answers.second = .ok (.dict document) →
      Current provider w.trace v w.clock document ∧ StoredSince w.trace v document) :
    Followed P V C provider w.trace v answers (V.validate C P v.token v.nonce v.now answers)
      w.clock where
  documents := by
    rintro document (h | h)
    · exact hfirst document h
    · exact (hsecond document h).1
  missing := by
    intro hmissing
    obtain ⟨-, -, document, hdocument⟩ := signingKey_eq_none hmissing
    obtain ⟨body, stored, hmem, hbegan⟩ := (hsecond document hdocument).2
    exact ⟨body, document, stored, hdocument, hmem, hbegan⟩
  accepted := fun _ h => OIDCValidator.accepts_of_ok hC h

theorem Sound.asking_of_waiting (h : w.Sound P provider V C)
    (hphase : w.phase i = .waiting v question) : Asking provider w.trace w.clock v question := by
  have hsound := h.phases i
  rw [hphase] at hsound
  exact hsound

-- what last_rotated_at says once a document of another fingerprint may have been seen
theorem CacheSound.rotated_rotate {got : FetchedKeys} {wall : Reading} {trace : List JwksEvent}
    (h : CacheSound P provider w.cache w.trace w.clock) (htrace : ∀ e ∈ w.trace, e ∈ trace)
    (hseen : SeenWith P trace got.fingerprint)
    (hrotated : (w.cache.rotate got wall).lastRotatedAt ≠ 0) :
    ∃ digest digest', digest ≠ digest' ∧ SeenWith P trace digest ∧ SeenWith P trace digest' := by
  rw [JwksCache.rotate] at hrotated
  dsimp only at hrotated
  split_ifs at hrotated with hchanged
  · cases hknown : w.cache.keyFingerprint with
    | none =>
        rw [hknown] at hchanged
        cases hchanged
    | some known =>
        rw [hknown] at hchanged
        exact ⟨got.fingerprint, known, of_decide_eq_true hchanged, hseen,
          (h.fingerprinted known hknown).mono htrace⟩
  · obtain ⟨digest, digest', hne, hdigest, hdigest'⟩ := h.rotated hrotated
    exact ⟨digest, digest', hne, hdigest.mono htrace, hdigest'.mono htrace⟩

theorem CacheSound.store {body : List UInt8} {got : FetchedKeys} {wall : Reading}
    (h : CacheSound P provider w.cache w.trace w.clock)
    (hgot : HasFingerprint P got.document got.fingerprint) :
    CacheSound P provider (w.cache.store provider got w.clock wall)
      (w.trace ++ [.stored body got.document w.clock]) w.clock := by
  have hmem : ∀ e ∈ w.trace, e ∈ w.trace ++ [.stored body got.document w.clock] :=
    fun e he => List.mem_append_left _ he
  have hnew : JwksEvent.stored body got.document w.clock ∈
      w.trace ++ [.stored body got.document w.clock] := List.mem_append_right _ List.mem_cons_self
  have hpast : ∀ body' document' stored',
      JwksEvent.stored body' document' stored' ∈ w.trace ++ [.stored body got.document w.clock] →
      stored' ≤ w.clock := by
    intro body' document' stored' hstored
    rcases List.mem_append.mp hstored with hstored | hstored
    · exact h.past _ _ _ hstored
    · cases List.mem_singleton.mp hstored
      exact Reading.le_refl _
  have hwith : SeenWith P (w.trace ++ [.stored body got.document w.clock]) got.fingerprint :=
    ⟨got.document, ⟨body, .inl ⟨w.clock, hnew⟩⟩, hgot⟩
  refine ⟨hpast, ?_, ?_, h.rotated_rotate hmem hwith⟩
  · intro document hdocument
    obtain rfl := Option.some.inj hdocument
    exact ⟨body, w.clock, hnew, rfl, hpast⟩
  · intro digest hdigest
    obtain rfl := Option.some.inj hdigest
    exact hwith

-- a document that could not be copied leaves the cache, but for the rotation it is taken for
theorem CacheSound.drop {body : List UInt8} {got : FetchedKeys} {wall : Reading}
    (h : CacheSound P provider w.cache w.trace w.clock)
    (hgot : HasFingerprint P got.document got.fingerprint) :
    CacheSound P provider (w.cache.rotate got wall)
      (w.trace ++ [.dropped body got.document]) w.clock := by
  have hmem : ∀ e ∈ w.trace, e ∈ w.trace ++ [.dropped body got.document] :=
    fun e he => List.mem_append_left _ he
  have hnew : JwksEvent.dropped body got.document ∈ w.trace ++ [.dropped body got.document] :=
    List.mem_append_right _ List.mem_cons_self
  have hkept := h.mono hmem (Reading.le_refl _) (by
    intro body' document' stored' hstored
    rcases List.mem_append.mp hstored with hstored | hstored
    · exact hstored
    · cases List.mem_singleton.mp hstored)
  refine ⟨hkept.past, ?_, hkept.fingerprinted,
    h.rotated_rotate hmem ⟨got.document, ⟨body, .inr hnew⟩, hgot⟩⟩
  intro document hdocument
  obtain ⟨body', stored, hlatest⟩ := hkept.latest document hdocument
  exact ⟨body', stored, hlatest.mem, hlatest.expires, hlatest.last⟩

variable [DecidableEq ι]

theorem Settled.conclude (h : Settled P provider V C i w)
    (hfollowed : Followed P V C provider w.trace v answers
      (V.validate C P v.token v.nonce v.now answers) w.clock) :
    (w.conclude P V C i v answers).Sound P provider V C := by
  have hmem : ∀ e ∈ w.trace, e ∈ w.trace ++
      [.concluded v answers (V.validate C P v.token v.nonce v.now answers) w.clock] :=
    fun e he => List.mem_append_left _ he
  have hclock := Reading.le_refl w.clock
  have hcache : CacheSound P provider w.cache (w.trace ++
      [.concluded v answers (V.validate C P v.token v.nonce v.now answers) w.clock]) w.clock := by
    refine h.cache.mono hmem hclock ?_
    intro body document stored hstored
    rcases List.mem_append.mp hstored with hstored | hstored
    · exact hstored
    · cases List.mem_singleton.mp hstored
  have hlogged : Settled P provider V C i { w with
      trace := w.trace ++
        [.concluded v answers (V.validate C P v.token v.nonce v.now answers) w.clock] } :=
    ⟨justified_concat h.justified hfollowed, hcache,
      fun j hj => (h.phases j hj).mono hmem hclock, h.exclusive⟩
  exact hlogged.goTo trivial (fun h => by cases h)

theorem Settled.answered (hC : C.Documented kind) (h : Settled P provider V C i w)
    (hasking : Asking provider w.trace w.clock v question)
    (hcurrent : Current provider w.trace v w.clock document)
    (hsince : question ≠ .first → StoredSince w.trace v document) :
    (w.answered P V C i v document question).Sound P provider V C := by
  have honce : Followed P V C provider w.trace v
      ⟨.ok (.dict document), none, JWKSAnswers.unasked⟩
      (V.validate C P v.token v.nonce v.now
        ⟨.ok (.dict document), none, JWKSAnswers.unasked⟩) w.clock := by
    refine followed_of_answers hC ?_ (fun _ h => by cases h)
    intro document' h
    cases h
    exact hcurrent
  cases question with
  | first =>
      rw [JwksWorld.answered]
      split
      · exact h.conclude honce
      · split_ifs
        · exact h.conclude honce
        · exact h.goTo ⟨hasking.began, hcurrent⟩ (fun h => by cases h)
  | refresh first =>
      exact h.goTo ⟨hasking.began, hasking.heard, document, hsince (fun h => by cases h)⟩
        (fun h => by cases h)
  | second first =>
      refine h.conclude (followed_of_answers hC ?_ ?_)
      · intro document' h
        cases h
        exact hasking.heard.1
      · intro document' h
        cases h
        exact ⟨hcurrent, hsince (fun h => by cases h)⟩

theorem Settled.raised (hC : C.Documented kind) (h : Settled P provider V C i w)
    (hasking : Asking provider w.trace w.clock v question) (e : Exc) :
    (w.raised P V C i v e question).Sound P provider V C := by
  cases question with
  | first =>
      exact h.conclude (followed_of_answers hC (fun _ h => by cases h) (fun _ h => by cases h))
  | refresh first =>
      refine h.conclude (followed_of_answers hC ?_ (fun _ h => by cases h))
      intro document' h
      cases h
      exact hasking.heard
  | second first =>
      refine h.conclude (followed_of_answers hC ?_ (fun _ h => by cases h))
      intro document' h
      cases h
      exact hasking.heard.1

theorem Sound.fetch (h : w.Sound P provider V C) (hfree : w.holder = none)
    (hasking : Asking provider w.trace w.clock v question) :
    (w.fetch i v question).Sound P provider V C := by
  have hheld : Settled P provider V C i { w with holder := some i } := by
    refine ⟨h.justified, h.cache, fun j _ => h.phases j, ?_⟩
    intro j _ hbusy
    have hholder := h.exclusive j hbusy
    rw [hfree] at hholder
    cases hholder
  exact hheld.goTo hasking (fun _ => rfl)

theorem live_eq_some {cache : JwksCache} {now : Reading} (h : cache.live now = some document) :
    cache.jwks = some document ∧ now.seconds < cache.expiresAt := by
  rw [JwksCache.live] at h
  split_ifs at h with hexpired
  exact ⟨h, not_le.mp hexpired⟩

theorem Sound.getJwks (hC : C.Documented kind) (h : w.Sound P provider V C)
    (hfree : w.holder = none) (hasking : Asking provider w.trace w.clock v question)
    (hsince : question ≠ .first → ∃ document, StoredSince w.trace v document) :
    (w.getJwks P V C i v question).Sound P provider V C := by
  rw [JwksWorld.getJwks]
  split
  · exact h.fetch hfree hasking
  · next document hlive =>
      split
      · exact (h.settled i).raised hC hasking _
      · next copied hcopied =>
          obtain ⟨-, rfl⟩ := Interpreter.deepcopy_eq_ok.mp hcopied
          obtain ⟨hjwks, hlt⟩ := live_eq_some hlive
          obtain ⟨body, stored, hlatest⟩ := h.cache.latest document hjwks
          rw [hlatest.expires] at hlt
          refine (h.settled i).answered hC hasking ⟨body, stored, w.clock, hlatest.mem,
            h.cache.past _ _ _ hlatest.mem, hasking.began, Reading.le_refl _,
            Reading.lt_of_lt_plus hlt⟩ ?_
          -- what was stored since the validation began is not younger than the cache
          intro hfirst
          obtain ⟨document', body', stored', hmem', hbegan⟩ := hsince hfirst
          exact ⟨body, stored, hlatest.mem, Reading.le_trans hbegan (hlatest.last _ _ _ hmem')⟩

theorem Sound.ask (hC : C.Documented kind) (h : w.Sound P provider V C) (hfree : w.holder = none)
    (hphase : w.phase i = .waiting v question) :
    (w.ask P V C i v question).Sound P provider V C := by
  have hasking := h.asking_of_waiting hphase
  cases question with
  | first => exact h.getJwks hC hfree hasking (fun h => absurd rfl h)
  | refresh first => exact h.fetch hfree hasking
  | second first => exact h.getJwks hC hfree hasking (fun _ => hasking.heard.2)

theorem Sound.receive (hC : C.Documented kind) (h : w.Sound P provider V C)
    (hphase : w.phase i = .fetching v question) (response : EndpointResponse) :
    (w.receive P V C i v question response).Sound P provider V C := by
  have hasking : Asking provider w.trace w.clock v question := by
    have hsound := h.phases i
    rw [hphase] at hsound
    exact hsound
  have hholds : (w.phase i).holdsLock = true := by
    rw [hphase]
    rfl
  rw [JwksWorld.receive]
  split
  · exact (h.settled_of_holds hholds).raised hC hasking _
  · next got hgot =>
      cases response with
      | failed => exact h
      | served body =>
          exact (h.settled i).goTo ⟨hasking, hgot⟩ (fun _ => h.exclusive i hholds)

theorem Sound.keep (hC : C.Documented kind) (h : w.Sound P provider V C) {body : List UInt8}
    {got : FetchedKeys} (hphase : w.phase i = .storing v question body got) (wall : Reading) :
    (w.keep P V C provider i v question body got wall).Sound P provider V C := by
  have hsound := h.phases i
  rw [hphase] at hsound
  obtain ⟨hasking, hgot⟩ := hsound
  have hholds : (w.phase i).holdsLock = true := by
    rw [hphase]
    rfl
  obtain ⟨body', hbody, hserved, hdigest⟩ := fetched_eq_ok hgot
  cases hbody
  have hclock := Reading.le_refl w.clock
  have hsettled := h.settled_of_holds hholds
  rw [JwksWorld.keep]
  split
  · next e hcopy =>
      have hdeep : ¬ P.Copyable got.document := by
        intro hcopyable
        rw [Interpreter.deepcopy, if_pos hcopyable] at hcopy
        cases hcopy
      have hmem : ∀ e ∈ w.trace, e ∈ w.trace ++ [.dropped body got.document] :=
        fun e he => List.mem_append_left _ he
      have hdropped : Justified P V C provider w.trace (.dropped body got.document) :=
        ⟨hserved, hdeep⟩
      have hkept : Settled P provider V C i
          ({ w with cache := w.cache.rotate got wall, holder := none }.log
            (.dropped body got.document)) :=
        ⟨justified_concat h.justified hdropped, h.cache.drop hdigest,
          fun j hj => (hsettled.phases j hj).mono hmem hclock, hsettled.exclusive⟩
      exact hkept.raised hC (hasking.mono hmem hclock) e
  · next document hcopied =>
      obtain ⟨-, rfl⟩ := Interpreter.deepcopy_eq_ok.mp hcopied
      have hmem : ∀ e ∈ w.trace, e ∈ w.trace ++ [.stored body got.document w.clock] :=
        fun e he => List.mem_append_left _ he
      have hnew : JwksEvent.stored body got.document w.clock ∈
          w.trace ++ [.stored body got.document w.clock] :=
        List.mem_append_right _ List.mem_cons_self
      have hpositive : (0 : ℚ) < provider.cacheSeconds := by exact_mod_cast provider.positive.1
      exact Settled.answered hC ⟨justified_concat h.justified hserved, h.cache.store hdigest,
        fun j hj => (hsettled.phases j hj).mono hmem hclock, hsettled.exclusive⟩
        (hasking.mono hmem hclock) ⟨body, w.clock, w.clock, hnew, hclock, hasking.began, hclock,
          lt_add_of_pos_right _ hpositive⟩ fun _ => ⟨body, w.clock, hnew, hasking.began⟩

theorem Sound.step (hC : C.Documented kind) (h : w.Sound P provider V C) (move : JwksMove ι) :
    (w.step P V C provider move).Sound P provider V C := by
  cases move with
  | tick now =>
      rw [JwksWorld.step]
      split_ifs with hnow
      · exact ⟨h.justified, h.cache.mono (fun _ he => he) hnow fun _ _ _ hmem => hmem,
          fun j => (h.phases j).mono (fun _ he => he) hnow, h.exclusive⟩
      · exact h
  | validate i token nonce now =>
      rw [JwksWorld.step]
      split
      · exact (h.settled i).goTo ⟨Reading.le_refl _, trivial⟩ (fun h => by cases h)
      · exact h
  | acquire i =>
      rw [JwksWorld.step]
      split
      · next hfree hphase => exact h.ask hC hfree hphase
      · exact h
  | respond i response =>
      rw [JwksWorld.step]
      split
      · next hphase => exact h.receive hC hphase response
      · exact h
  | store i wall =>
      rw [JwksWorld.step]
      split
      · next hphase => exact h.keep hC hphase wall
      · exact h

end JwksWorld

namespace Oidc

open PyVal

theorem distinct_addSigningKey {keys keys' : List (Str × PyDict)} {value : PyVal}
    (hkeys : Dict.Distinct keys) (h : addSigningKey keys value = .ok keys') :
    Dict.Distinct keys' := by
  rw [addSigningKey, bind_eq_ok] at h
  obtain ⟨item, -, h⟩ := h
  split_ifs at h
  · split at h
    · split_ifs at h
      obtain rfl := Except.ok.inj h
      exact Dict.distinct_set hkeys _ _
    · cases h
  · obtain rfl := Except.ok.inj h
    exact hkeys

theorem distinct_signingKeysById {document : PyDict} {keys : List (Str × PyDict)}
    (h : signingKeysById document = .ok keys) : Dict.Distinct keys := by
  rw [signingKeysById] at h
  split at h
  · exact @foldlM_invariant _ _ _ (fun _ keys => Dict.Distinct keys)
      (fun _ _ _ _ hkeys h => distinct_addSigningKey hkeys h) _ [] _ _ List.Pairwise.nil h
  · cases h

theorem keysValue_isJson {document : PyDict} {keys : List (Str × PyDict)}
    (hdocument : (PyVal.dict document).IsJson) (h : signingKeysById document = .ok keys) :
    (keysValue keys).IsJson := by
  have hdistinct := distinct_signingKeysById h
  have hkeys : keysOf (.ok (.dict document)) = .ok keys := h
  obtain ⟨document', values, hanswer, hvalues, hlisted⟩ := listed_keysOf hkeys
  cases hanswer
  refine ⟨?_, ?_, isJsonMembers_iff.mpr ?_⟩
  · intro m hm
    obtain ⟨key, -, rfl⟩ := List.mem_map.mp hm
    rfl
  · refine List.pairwise_map.mpr (hdistinct.imp ?_)
    intro a b hab
    simpa [Keyed.same, PyKey.classOf] using hab
  · intro m hm
    obtain ⟨key, hkey, rfl⟩ := List.mem_map.mp hm
    have hget : Dict.get keys key.1 = some key.2 :=
      Dict.get_of_mem hdistinct hkey (decide_eq_true rfl)
    have hmem := (hlisted key.1 key.2 hget).1
    have hlist := isJson_getD hdocument "keys"
    rw [hvalues] at hlist
    exact isJsonItems_iff.mp hlist _ hmem

-- the signing keys of two documents, in whatever order and whatever else stands in them
def SameSigningKeys (document document' : PyDict) : Prop :=
  ∃ keys keys', signingKeysById document = .ok keys ∧ signingKeysById document' = .ok keys' ∧
    Same (keysValue keys) (keysValue keys')

theorem fingerprint_eq_of_same {P : Primitives} {document document' : PyDict}
    {digest digest' : Str} (hdocument : (PyVal.dict document).IsJson)
    (hdocument' : (PyVal.dict document').IsJson) (hsame : SameSigningKeys document document')
    (h : HasFingerprint P document digest) (h' : HasFingerprint P document' digest') :
    digest = digest' := by
  obtain ⟨keys, keys', hkeys, hkeys', hsame⟩ := hsame
  obtain ⟨_, hfound, hdigest⟩ := h
  obtain rfl := Except.ok.inj (hkeys.symm.trans hfound)
  obtain ⟨_, hfound', hdigest'⟩ := h'
  obtain rfl := Except.ok.inj (hkeys'.symm.trans hfound')
  obtain ⟨text, htext, hdigest⟩ := bind_eq_ok.mp hdigest
  obtain ⟨tree, htree, hrendered⟩ := bind_eq_ok.mp htext
  have htree' := hsame.toTree (keysValue_isJson hdocument hkeys)
    (keysValue_isJson hdocument' hkeys') htree
  have htext' : P.dumps fingerprintStyle (keysValue keys') = .ok text :=
    bind_eq_ok.mpr ⟨tree, htree', hrendered⟩
  obtain ⟨text', htext'', hdigest'⟩ := bind_eq_ok.mp hdigest'
  obtain rfl := Except.ok.inj (htext'.symm.trans htext'')
  exact Except.ok.inj (hdigest.symm.trans hdigest')

end Oidc

theorem JwksEvent.Served.isJson {P : Primitives} {body : List UInt8} {document : PyDict}
    (h : Served P body document) : (PyVal.dict document).IsJson := by
  have hread := h.read
  rw [Interpreter.loadsBytes] at hread
  split at hread
  · cases hread
  · rw [Interpreter.loads] at hread
    split at hread
    · rw [← Except.ok.inj hread]
      exact PyVal.ofTree_isJson _
    · cases hread
    · cases hread
    · cases hread

namespace JwksWorld

open JwksEvent

variable {ι Key : Type} {kind : Key → KeyKind}

structure KeysFollowed (P : Primitives) (V : OIDCValidator) (C : Cryptography Key)
    (provider : UrlJWKSProvider) (w : JwksWorld ι) : Prop where
  justified : AllJustified P V C provider w.trace
  exclusive : ∀ i j, (w.phase i).holdsLock = true → (w.phase j).holdsLock = true → i = j
  steady : (∀ document document', Seen w.trace document → Seen w.trace document' →
    SameSigningKeys document document') → w.cache.lastRotatedAt = 0

theorem served_of_seen {P : Primitives} {V : OIDCValidator} {C : Cryptography Key}
    {provider : UrlJWKSProvider} {trace : List JwksEvent} {document : PyDict}
    (h : AllJustified P V C provider trace) (hseen : Seen trace document) :
    ∃ body, Served P body document := by
  obtain ⟨body, ⟨stored, hmem⟩ | hmem⟩ := hseen
  · obtain ⟨before, after, htrace⟩ := List.append_of_mem hmem
    exact ⟨body, Calls.each_iff.mp h before _ after htrace⟩
  · obtain ⟨before, after, htrace⟩ := List.append_of_mem hmem
    have hjustified := Calls.each_iff.mp h before _ after htrace
    exact ⟨body, hjustified.1⟩

theorem sound_opened (P : Primitives) (V : OIDCValidator) (C : Cryptography Key)
    (provider : UrlJWKSProvider) (clock : Reading) :
    (opened clock : JwksWorld ι).Sound P provider V C where
  justified := trivial
  cache :=
    { past := by
        intro _ _ _ h
        cases h
      latest := by
        intro _ h
        cases h
      fingerprinted := by
        intro _ h
        cases h
      rotated := fun h => absurd rfl h }
  phases := fun _ => trivial
  exclusive := by
    intro _ h
    cases h

theorem Sound.keysFollowed {P : Primitives} {V : OIDCValidator} {C : Cryptography Key}
    {provider : UrlJWKSProvider} {w : JwksWorld ι} (h : w.Sound P provider V C) :
    KeysFollowed P V C provider w := by
  refine ⟨h.justified, ?_, ?_⟩
  · intro i j hi hj
    exact Option.some.inj ((h.exclusive i hi).symm.trans (h.exclusive j hj))
  · intro hsame
    by_contra hrotated
    obtain ⟨digest, digest', hne, ⟨document, hseen, hdigest⟩, document', hseen', hdigest'⟩ :=
      h.cache.rotated hrotated
    obtain ⟨body, hserved⟩ := served_of_seen h.justified hseen
    obtain ⟨body', hserved'⟩ := served_of_seen h.justified hseen'
    exact hne (fingerprint_eq_of_same hserved.isJson hserved'.isJson (hsame _ _ hseen hseen')
      hdigest hdigest')

variable [DecidableEq ι]

theorem sound_run (P : Primitives) (V : OIDCValidator) (C : Cryptography Key)
    (hC : C.Documented kind) (provider : UrlJWKSProvider) (clock : Reading)
    (moves : List (JwksMove ι)) :
    (Calls.run (step P V C provider) (opened clock) moves).Sound P provider V C :=
  Calls.always (A := fun w : JwksWorld ι => w.Sound P provider V C)
    (fun _ move h => h.step hC move) moves (sound_opened P V C provider clock)

theorem keys_followed (P : Primitives) (V : OIDCValidator) (C : Cryptography Key)
    (hC : C.Documented kind) (provider : UrlJWKSProvider) (clock : Reading)
    (moves : List (JwksMove ι)) :
    KeysFollowed P V C provider (Calls.run (step P V C provider) (opened clock) moves) :=
  (sound_run P V C hC provider clock moves).keysFollowed

-- the issuer takes up the key of a token after the first document was fetched
def keysBody (document : String) : EndpointResponse :=
  .served ((lit document).map (fun p => UInt8.ofNat p.val))

def issuerBody : EndpointResponse :=
  keysBody ("\x7b\"keys\":[\x7b\"kty\":\"OKP\",\"crv\":\"Ed25519\",\"kid\":\"k\",\"x\":\"" ++
    "O2onvM62pC1io6jQKm8Nc2UyFXcd4kOmOsBIoYtZ2ik\"\x7d]\x7d")

def issuerProvider : UrlJWKSProvider where
  url := "https://id/keys"
  secure := by decide
  positive := by decide

def zeroReading : Reading := ⟨0, by decide⟩

def takenUp : List (JwksMove Bool) :=
  [.validate true firstToken none 5, .acquire true, .validate false firstToken none 5,
    .acquire false, .respond true (keysBody "\x7b\"keys\":[]\x7d"), .store true zeroReading,
    .acquire false, .acquire true, .respond true issuerBody, .store true zeroReading,
    .acquire true, .acquire false, .respond false .failed]

def accepts : JwksEvent → Bool
  | .concluded _ _ (.ok _) _ => true
  | _ => false

theorem keys_followed_taken_up :
    KeysFollowed sizePrimitives gasValidator issuerCryptography issuerProvider
      (Calls.run (step sizePrimitives gasValidator issuerCryptography issuerProvider)
        (opened zeroReading) takenUp) :=
  keys_followed sizePrimitives gasValidator issuerCryptography issuerCryptography_documented
    issuerProvider zeroReading takenUp

example : (Calls.run (step sizePrimitives gasValidator issuerCryptography issuerProvider)
    (opened zeroReading) [.validate true firstToken none 5, .acquire true,
      .respond true issuerBody, .store true zeroReading]).trace.map accepts =
      [false, true] := by decide +kernel

end JwksWorld

end GovernedAutonomy
