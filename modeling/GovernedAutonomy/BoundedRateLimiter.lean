import GovernedAutonomy.Protocol.Calls
import GovernedAutonomy.Protocol.SlidingWindow
import GovernedAutonomy.Python.Dict
import GovernedAutonomy.Python.Exception
import Mathlib.Algebra.Order.Ring.Rat
import Mathlib.Data.List.Perm.Subperm
import Mathlib.Tactic.Linarith

namespace GovernedAutonomy

open Python Protocol

structure BoundedRateLimiter where
  limit : ℕ
  windowSeconds : ℚ
  maxClients : ℕ
  limit_pos : 0 < limit
  windowSeconds_pos : 0 < windowSeconds
  maxClients_pos : 0 < maxClients

-- one call of allow, and what the clock shows it
structure LimiterCall where
  now : ℚ
  client : Str
deriving DecidableEq

abbrev ClientHits := List (Str × List ℚ)

namespace BoundedRateLimiter

def init (limit : ℤ) (windowSeconds : ℚ) (maxClients : ℤ) : Result BoundedRateLimiter :=
  if h : limit ≤ 0 ∨ windowSeconds ≤ 0 ∨ maxClients ≤ 0 then
    .error (.valueError (lit "rate limiter bounds must be positive"))
  else
    .ok
      { limit := limit.toNat
        windowSeconds
        maxClients := maxClients.toNat
        limit_pos := by omega
        windowSeconds_pos := not_le.mp fun hle => h (Or.inr (Or.inl hle))
        maxClients_pos := by omega }

variable (limiter : BoundedRateLimiter)

def stampsOf (hits : ClientHits) (client : Str) : List ℚ := (Dict.get hits client).getD []

def allow (hits : ClientHits) (call : LimiterCall) : ClientHits × Bool :=
  if Dict.has hits call.client = false ∧ limiter.maxClients ≤ hits.length then (hits, false)
  else
    let stamps := SlidingWindow.recent limiter.windowSeconds call.now (stampsOf hits call.client)
    if limiter.limit ≤ stamps.length then (Dict.set hits call.client stamps, false)
    else (Dict.set hits call.client (stamps ++ [call.now]), true)

-- the table, and the calls so far that were answered with True
structure Served where
  hits : ClientHits := []
  permits : List LimiterCall := []

def serve (served : Served) (call : LimiterCall) : Served where
  hits := (limiter.allow served.hits call).1
  permits := if (limiter.allow served.hits call).2 = true then served.permits ++ [call]
    else served.permits

def Served.stamps (served : Served) (client : Str) : List ℚ :=
  (served.permits.filter (fun call => call.client = client)).map LimiterCall.now

def after (calls : List LimiterCall) : Served := Calls.run limiter.serve {} calls

-- the permits of a client that the window before a call holds
def permitsBefore (served : Served) (now : ℚ) (client : Str) : List ℚ :=
  SlidingWindow.recent limiter.windowSeconds now (served.stamps client)

def Idle (served : Served) (now : ℚ) (client : Str) : Prop :=
  limiter.permitsBefore served now client = []

end BoundedRateLimiter

namespace BoundedRateLimiter

variable {limiter : BoundedRateLimiter} {served : Served} {calls : List LimiterCall}
  {call : LimiterCall} {client : Str} {now : ℚ}

def Tracks (hits : ClientHits) (client : Str) : Prop := Dict.has hits client = true

-- the call finds no place in the table
def TurnsAway (limiter : BoundedRateLimiter) (hits : ClientHits) (client : Str) : Prop :=
  ¬ Tracks hits client ∧ limiter.maxClients ≤ hits.length

theorem allow_away {hits : ClientHits} (h : limiter.TurnsAway hits call.client) :
    limiter.allow hits call = (hits, false) := by
  rw [allow, if_pos ⟨Bool.eq_false_iff.mpr h.1, h.2⟩]

theorem allow_admitted {hits : ClientHits} (h : ¬ limiter.TurnsAway hits call.client)
    {stamps : List ℚ} (hstamps : SlidingWindow.recent limiter.windowSeconds call.now
      (stampsOf hits call.client) = stamps) :
    limiter.allow hits call = if stamps.length < limiter.limit
      then (Dict.set hits call.client (stamps ++ [call.now]), true)
      else (Dict.set hits call.client stamps, false) := by
  rw [allow, if_neg fun hfull => h ⟨Bool.eq_false_iff.mp hfull.1, hfull.2⟩, hstamps]
  by_cases hroom : stamps.length < limiter.limit
  · rw [if_pos hroom, if_neg (not_le.mpr hroom)]
  · rw [if_neg hroom, if_pos (not_lt.mp hroom)]

@[simp]
theorem after_nil : limiter.after [] = {} := rfl

theorem after_concat : limiter.after (calls ++ [call]) = limiter.serve (limiter.after calls) call :=
  Calls.run_append _ _ _

theorem stampsOf_set (hits : ClientHits) (client' : Str) (stamps : List ℚ) :
    stampsOf (Dict.set hits client' stamps) client =
      if client' = client then stamps else stampsOf hits client := by
  rw [stampsOf, Dict.get_set_eq]
  split <;> rfl

-- what a call adds to the permits of a client
def granted (limiter : BoundedRateLimiter) (hits : ClientHits) (call : LimiterCall)
    (client : Str) : List ℚ :=
  if (limiter.allow hits call).2 = true ∧ call.client = client then [call.now] else []

theorem stamps_serve : (limiter.serve served call).stamps client =
    served.stamps client ++ limiter.granted served.hits call client := by
  rw [serve, granted, Served.stamps, Served.stamps]
  cases (limiter.allow served.hits call).2 with
  | false => simp
  | true =>
      rw [if_pos rfl, List.filter_append, List.map_append, List.filter_singleton]
      by_cases h : call.client = client <;> simp [h]

-- the table drops what the window of the call has lost, and adds what the call was granted
theorem hits_serve (hnow : call.now ≤ now) :
    SlidingWindow.recent limiter.windowSeconds now
        (stampsOf (limiter.serve served call).hits client) =
      SlidingWindow.recent limiter.windowSeconds now
        (stampsOf served.hits client ++ limiter.granted served.hits call client) := by
  rw [serve, granted]
  by_cases haway : limiter.TurnsAway served.hits call.client
  · simp [allow_away haway]
  · rw [allow_admitted haway rfl]
    split
    · rw [stampsOf_set, SlidingWindow.recent_append]
      by_cases hclient : call.client = client
      · subst hclient
        rw [if_pos rfl, if_pos ⟨rfl, rfl⟩, SlidingWindow.recent_append,
          SlidingWindow.recent_recent hnow]
      · rw [if_neg hclient, if_neg fun h => hclient h.2, SlidingWindow.recent_nil,
          List.append_nil]
    · simp only [stampsOf_set, Bool.false_eq_true, false_and, if_false, List.append_nil]
      split
      · rename_i hclient
        subst hclient
        exact SlidingWindow.recent_recent hnow _
      · rfl

theorem distinct_allow (h : Dict.Distinct served.hits) :
    Dict.Distinct (limiter.allow served.hits call).1 := by
  by_cases haway : limiter.TurnsAway served.hits call.client
  · rwa [allow_away haway]
  · rw [allow_admitted haway rfl]
    split
    · exact Dict.distinct_set h _ _
    · exact Dict.distinct_set h _ _

theorem length_allow : (limiter.allow served.hits call).1.length ≤
    max served.hits.length limiter.maxClients := by
  by_cases haway : limiter.TurnsAway served.hits call.client
  · rw [allow_away haway]
    exact le_max_left _ _
  · have hset : ∀ stamps : List ℚ, (Dict.set served.hits call.client stamps).length ≤
        max served.hits.length limiter.maxClients := by
      intro stamps
      rw [Dict.length_set]
      split
      · exact le_max_left _ _
      · rename_i hnew
        have hroom : served.hits.length < limiter.maxClients := by
          by_contra hfull
          exact haway ⟨hnew, not_lt.mp hfull⟩
        exact le_max_of_le_right hroom
    rw [allow_admitted haway rfl]
    split
    · exact hset _
    · exact hset _

-- the table holds of every client just what its window can still see
structure Sound (limiter : BoundedRateLimiter) (calls : List LimiterCall) (served : Served) :
    Prop where
  tracked : served.hits.length ≤ limiter.maxClients
  distinct : Dict.Distinct served.hits
  past : ∀ client, ∀ stamp ∈ served.stamps client, ∃ call ∈ calls, stamp = call.now
  sorted : ∀ client, (served.stamps client).Pairwise (· ≤ ·)
  spaced : ∀ client,
    SlidingWindow.Spaced limiter.limit limiter.windowSeconds (served.stamps client)
  kept : ∀ client now, (∀ call ∈ calls, call.now ≤ now) →
    SlidingWindow.recent limiter.windowSeconds now (stampsOf served.hits client) =
      limiter.permitsBefore served now client

theorem sound_nil : Sound limiter [] {} where
  tracked := Nat.zero_le _
  distinct := List.Pairwise.nil
  past := by
    intro client stamp hstamp
    cases hstamp
  sorted := fun _ => List.Pairwise.nil
  spaced := fun _ => SlidingWindow.spaced_nil
  kept := fun _ _ _ => rfl

theorem granted_cases (hits : ClientHits) (call : LimiterCall) (client : Str) :
    limiter.granted hits call client = [] ∨
      limiter.granted hits call client = [call.now] ∧ call.client = client ∧
        ¬ limiter.TurnsAway hits client ∧ (SlidingWindow.recent limiter.windowSeconds call.now
          (stampsOf hits client)).length < limiter.limit := by
  rw [granted]
  split
  · rename_i h
    obtain ⟨hallowed, rfl⟩ := h
    by_cases haway : limiter.TurnsAway hits call.client
    · rw [allow_away haway] at hallowed
      cases hallowed
    · rw [allow_admitted haway rfl] at hallowed
      split at hallowed
      · rename_i hroom
        exact Or.inr ⟨rfl, rfl, haway, hroom⟩
      · cases hallowed
  · exact Or.inl rfl

theorem sound_serve (h : Sound limiter calls served) (hnow : ∀ c ∈ calls, c.now ≤ call.now) :
    Sound limiter (calls ++ [call]) (limiter.serve served call) where
  tracked := length_allow.trans (max_le h.tracked le_rfl)
  distinct := distinct_allow h.distinct
  past := by
    intro client stamp hstamp
    rw [stamps_serve, List.mem_append] at hstamp
    rcases hstamp with hstamp | hstamp
    · obtain ⟨c, hc, rfl⟩ := h.past client stamp hstamp
      exact ⟨c, List.mem_append_left _ hc, rfl⟩
    · refine ⟨call, by simp, ?_⟩
      rcases granted_cases served.hits call client with hnone | ⟨hone, -⟩
      · rw [hnone] at hstamp
        cases hstamp
      · rw [hone] at hstamp
        exact List.mem_singleton.mp hstamp
  sorted := by
    intro client
    rw [stamps_serve]
    rcases granted_cases served.hits call client with hnone | ⟨hone, -⟩
    · rw [hnone, List.append_nil]
      exact h.sorted client
    · rw [hone]
      refine List.pairwise_append.mpr ⟨h.sorted client, List.pairwise_singleton _ _, ?_⟩
      intro stamp hstamp later hlater
      obtain rfl := List.mem_singleton.mp hlater
      obtain ⟨c, hc, rfl⟩ := h.past client stamp hstamp
      exact hnow c hc
  spaced := by
    intro client
    rw [stamps_serve]
    rcases granted_cases served.hits call client with hnone | ⟨hone, -, -, hroom⟩
    · rw [hnone, List.append_nil]
      exact h.spaced client
    · rw [hone]
      rw [h.kept client call.now hnow] at hroom
      exact SlidingWindow.spaced_concat.mpr ⟨h.spaced client, hroom⟩
  kept := by
    intro client now hlast
    obtain ⟨hcalls, hcall⟩ := List.forall_mem_append.mp hlast
    rw [hits_serve (hcall call (List.mem_singleton_self call)), SlidingWindow.recent_append,
      h.kept client now hcalls, permitsBefore, permitsBefore, stamps_serve,
      SlidingWindow.recent_append]

theorem sound_after (h : calls.Pairwise (fun a b => a.now ≤ b.now)) :
    Sound limiter calls (limiter.after calls) := by
  induction calls using List.reverseRecOn with
  | nil => exact sound_nil
  | append_singleton calls call ih =>
      obtain ⟨hcalls, -, hlast⟩ := List.pairwise_append.mp h
      rw [after_concat]
      exact sound_serve (ih hcalls) fun c hc => hlast c hc call (List.mem_singleton_self call)

-- what every run of the limiter keeps to
structure Fair (limiter : BoundedRateLimiter) (calls : List LimiterCall) : Prop where
  bounded : ∀ client start, (((limiter.after calls).stamps client).filter
    (fun t => decide (start ≤ t ∧ t < start + limiter.windowSeconds))).length ≤ limiter.limit
  bounded' : ∀ client start, (((limiter.after calls).stamps client).filter
    (fun t => decide (start < t ∧ t ≤ start + limiter.windowSeconds))).length ≤ limiter.limit
  available : ∀ before call later, calls = before ++ call :: later →
    Tracks (limiter.after before).hits call.client ∨
      (limiter.after before).hits.length < limiter.maxClients →
    (limiter.permitsBefore (limiter.after before) call.now call.client).length < limiter.limit →
      (limiter.allow (limiter.after before).hits call).2 = true
  tracked : ∀ before later, calls = before ++ later →
    (limiter.after before).hits.length ≤ limiter.maxClients

theorem sound_before (h : calls.Pairwise (fun a b => a.now ≤ b.now)) {before later : List LimiterCall}
    (hsplit : calls = before ++ later) : Sound limiter before (limiter.after before) := by
  rw [hsplit] at h
  exact sound_after (List.pairwise_append.mp h).1

theorem last_before (h : calls.Pairwise (fun a b => a.now ≤ b.now)) {before later : List LimiterCall}
    (hsplit : calls = before ++ call :: later) : ∀ c ∈ before, c.now ≤ call.now := by
  rw [hsplit] at h
  exact fun c hc => (List.pairwise_append.mp h).2.2 c hc call List.mem_cons_self

theorem fair (limiter : BoundedRateLimiter) (h : calls.Pairwise (fun a b => a.now ≤ b.now)) :
    Fair limiter calls where
  bounded := by
    intro client start
    have hsound : Sound limiter calls (limiter.after calls) := sound_after h
    refine (hsound.spaced client).length_le (hsound.sorted client) fun s t hs ht => ?_
    obtain ⟨hstart, -⟩ := of_decide_eq_true hs
    obtain ⟨-, hend⟩ := of_decide_eq_true ht
    linarith
  bounded' := by
    intro client start
    have hsound : Sound limiter calls (limiter.after calls) := sound_after h
    refine (hsound.spaced client).length_le (hsound.sorted client) fun s t hs ht => ?_
    obtain ⟨hstart, -⟩ := of_decide_eq_true hs
    obtain ⟨-, hend⟩ := of_decide_eq_true ht
    linarith
  available := by
    intro before call later hsplit hplace hroom
    have haway : ¬ limiter.TurnsAway (limiter.after before).hits call.client := by
      rintro ⟨hnew, hfull⟩
      exact hplace.elim hnew (not_lt.mpr hfull)
    rw [← (sound_before h hsplit).kept _ _ (last_before h hsplit)] at hroom
    rw [allow_admitted haway rfl, if_pos hroom]
  tracked := fun before later hsplit => (sound_before h hsplit).tracked

-- a refusal of a client without permits that is due to as many others with permits
def Justified (limiter : BoundedRateLimiter) (served : Served) (call : LimiterCall) : Prop :=
  (limiter.allow served.hits call).2 = false → limiter.Idle served call.now call.client →
    ∃ others : List Str, others.Nodup ∧ others.length = limiter.maxClients ∧
      ∀ client ∈ others, client ≠ call.client ∧ ¬ limiter.Idle served call.now client

-- the table is full, and keeps a client that its window can no longer see
def LocksOut (limiter : BoundedRateLimiter) (hits : ClientHits) (call : LimiterCall) : Prop :=
  limiter.TurnsAway hits call.client ∧ ∃ client, Tracks hits client ∧
    SlidingWindow.recent limiter.windowSeconds call.now (stampsOf hits client) = []

theorem tracks_iff {hits : ClientHits} : Tracks hits client ↔ client ∈ hits.map Prod.fst := by
  rw [Tracks, Dict.has, List.mem_map]
  constructor
  · intro h
    obtain ⟨stamps, hget⟩ := Option.isSome_iff_exists.mp h
    exact ⟨_, Dict.mem_of_get hget, rfl⟩
  · rintro ⟨m, hm, rfl⟩
    cases hget : Dict.get hits m.1 with
    | none =>
        have hdiffers := Dict.get_eq_none.mp hget m hm
        simp [same_list] at hdiffers
    | some stamps => rfl

theorem stampsOf_untracked {hits : ClientHits} (h : ¬ Tracks hits client) :
    stampsOf hits client = [] := by
  rw [Tracks, Dict.has, Bool.not_eq_true, Option.isSome_eq_false_iff, Option.isNone_iff_eq_none] at h
  rw [stampsOf, h]
  rfl

theorem nodup_clients {hits : ClientHits} (h : Dict.Distinct hits) :
    (hits.map Prod.fst).Nodup := by
  refine List.pairwise_map.mpr (h.imp fun hab => ?_)
  rwa [same_list, decide_eq_false_iff_not] at hab

theorem justified_iff (h : Sound limiter calls served) (hnow : ∀ c ∈ calls, c.now ≤ call.now) :
    Justified limiter served call ↔ ¬ LocksOut limiter served.hits call := by
  have hidle : ∀ client, limiter.Idle served call.now client ↔
      SlidingWindow.recent limiter.windowSeconds call.now (stampsOf served.hits client) = [] := by
    intro client
    rw [h.kept client call.now hnow]
    rfl
  constructor
  · rintro hjustified ⟨haway, client, htracked, hgone⟩
    obtain ⟨others, hnodup, hlength, hothers⟩ := hjustified (by rw [allow_away haway])
      ((hidle _).mpr (by rw [stampsOf_untracked haway.1]; rfl))
    have hsubset : others ⊆ served.hits.map Prod.fst := by
      intro other hother
      by_contra hnew
      refine (hothers other hother).2 ((hidle other).mpr ?_)
      rw [stampsOf_untracked fun htracks => hnew (tracks_iff.mp htracks)]
      rfl
    have hperm : others.Perm (served.hits.map Prod.fst) := by
      refine (hnodup.subperm hsubset).perm_of_length_le ?_
      rw [List.length_map, hlength]
      exact h.tracked
    have hmem := hperm.mem_iff.mpr (tracks_iff.mp htracked)
    exact (hothers client hmem).2 ((hidle client).mpr hgone)
  · intro hlocks hrefused hcaller
    have haway : limiter.TurnsAway served.hits call.client := by
      by_contra haway
      have hroom : ([] : List ℚ).length < limiter.limit := limiter.limit_pos
      rw [allow_admitted haway rfl, (hidle _).mp hcaller, if_pos hroom] at hrefused
      cases hrefused
    refine ⟨served.hits.map Prod.fst, nodup_clients h.distinct, ?_, ?_⟩
    · rw [List.length_map]
      exact le_antisymm h.tracked haway.2
    · intro client hclient
      have htracked := tracks_iff.mpr hclient
      refine ⟨?_, fun hgone => hlocks ⟨haway, client, htracked, (hidle client).mp hgone⟩⟩
      rintro rfl
      exact haway.1 htracked

theorem no_lockout_iff (limiter : BoundedRateLimiter)
    (h : calls.Pairwise (fun a b => a.now ≤ b.now)) :
    (∀ before call later, calls = before ++ call :: later →
      Justified limiter (limiter.after before) call) ↔
    ∀ before call later, calls = before ++ call :: later →
      ¬ LocksOut limiter (limiter.after before).hits call := by
  constructor
  · intro hall before call later hsplit
    exact (justified_iff (sound_before h hsplit) (last_before h hsplit)).mp
      (hall before call later hsplit)
  · intro hall before call later hsplit
    exact (justified_iff (sound_before h hsplit) (last_before h hsplit)).mpr
      (hall before call later hsplit)

-- room for one client, who calls once and never again
def narrow : BoundedRateLimiter where
  limit := 1
  windowSeconds := 60
  maxClients := 1
  limit_pos := Nat.one_pos
  windowSeconds_pos := by norm_num
  maxClients_pos := Nat.one_pos

def oneEach : List LimiterCall := [⟨0, "a"⟩, ⟨100, "b"⟩]

theorem oneEach_sorted : oneEach.Pairwise (fun a b => a.now ≤ b.now) := by
  simp [oneEach]

theorem fair_oneEach : Fair narrow oneEach := fair narrow oneEach_sorted

theorem no_lockout_iff_oneEach : (∀ before call later, oneEach = before ++ call :: later →
      Justified narrow (narrow.after before) call) ↔
    ∀ before call later, oneEach = before ++ call :: later →
      ¬ LocksOut narrow (narrow.after before).hits call :=
  no_lockout_iff narrow oneEach_sorted

theorem oneEach_locks_out : ¬ ∀ before call later, oneEach = before ++ call :: later →
    Justified narrow (narrow.after before) call := by
  intro h
  have hjustified := h [⟨0, "a"⟩] ⟨100, "b"⟩ [] rfl
  rw [justified_iff (sound_after (List.pairwise_singleton _ _)) (by simp)] at hjustified
  have hnew : ¬ Tracks (narrow.after [⟨0, "a"⟩]).hits "b" := by
    rw [Tracks]
    decide +kernel
  have hold : Tracks (narrow.after [⟨0, "a"⟩]).hits "a" := by
    rw [Tracks]
    decide +kernel
  refine hjustified ⟨⟨hnew, ?_⟩, "a", hold, ?_⟩
  · decide +kernel
  · decide +kernel

end BoundedRateLimiter

end GovernedAutonomy
