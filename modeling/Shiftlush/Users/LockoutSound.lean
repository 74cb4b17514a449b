import Shiftlush.Users.Lockout
import Mathlib.Algebra.Order.Ring.Rat
import Mathlib.Data.List.Induction

namespace Shiftlush
namespace Users
namespace Lockout

open Caches (Cache Entry find find_eq_some find_eq_none)

/-!
# How many passwords can be tried

A pair's count is opened by its first failure and lasts for a window, and at the last
allowed failure a lock takes its place.  No lock is shorter than a window, so that no
stretch as long as one meets more than the end of one count and the whole of another.
-/

variable {K : Type} [Field K] [LinearOrder K]
variable {lower : String -> String} {cache : Cache Key K Nat} {text : String} {attempt : Attempt K}

omit [Field K] in
theorem Attempt.asked_le_counted (attempt : Attempt K) : attempt.asked ≤ attempt.counted :=
  attempt.asked_le.trans (attempt.checked_le.trans attempt.added_le)

omit [Field K] in
theorem Attempt.counted_le_finished (attempt : Attempt K) : attempt.counted ≤ attempt.finished :=
  attempt.counted_le.trans (attempt.opened_le.trans attempt.closed_le)

omit [Field K] in
theorem Attempt.checked_le_finished (attempt : Attempt K) : attempt.checked ≤ attempt.finished :=
  attempt.checked_le.trans (attempt.added_le.trans attempt.counted_le_finished)

/-! ## One failure -/

/-- The pair's count after a failure. -/
def bumped (cache : Cache Key K Nat) (text : String) (attempt : Attempt K) : Entry K Nat :=
  match find cache (.failures text) attempt.added with
  | some entry =>
      if attempt.counted < entry.expiresAt then ⟨entry.value + 1, entry.expiresAt⟩
      else ⟨1, attempt.opened + attemptWindowSeconds⟩
  | none =>
      if attempt.counted < attempt.added + attemptWindowSeconds then ⟨1, attempt.added + attemptWindowSeconds⟩
      else ⟨1, attempt.opened + attemptWindowSeconds⟩

/-- The count and the cache before the lock. -/
theorem counted_spec (cache : Cache Key K Nat) (text : String) (attempt : Attempt K) :
    ∃ cache', (Caches.incr (Caches.add cache (.failures text) 0 (attempt.added + attemptWindowSeconds) attempt.added)
        (.failures text) attempt.counted).getD
          (1, Caches.set (Caches.add cache (.failures text) 0 (attempt.added + attemptWindowSeconds) attempt.added)
            (.failures text) 1 (attempt.opened + attemptWindowSeconds)) = ((bumped cache text attempt).value, cache') ∧
      cache' (.failures text) = some (bumped cache text attempt) ∧
      ∀ key, key ≠ .failures text -> cache' key = cache key := by
  unfold bumped
  cases there : find cache (.failures text) attempt.added with
  | some entry =>
      rw [Caches.add_of_some there]
      unfold Caches.incr
      dsimp only
      by_cases live : attempt.counted < entry.expiresAt
      · rw [find_eq_some.mpr ⟨(find_eq_some.mp there).1, live⟩, if_pos live]
        exact ⟨_, rfl, Caches.set_same .., fun key different => Caches.set_other different ..⟩
      · have gone : find cache (.failures text) attempt.counted = none := by
          rw [find_eq_none]
          intro entry' there'
          rw [(find_eq_some.mp there).1] at there'
          cases there'
          exact not_lt.mp live
        rw [gone, if_neg live]
        exact ⟨_, rfl, Caches.set_same .., fun key different => Caches.set_other different ..⟩
  | none =>
      rw [Caches.add_of_none there]
      unfold Caches.incr
      dsimp only
      by_cases live : attempt.counted < attempt.added + attemptWindowSeconds
      · rw [find_eq_some.mpr ⟨Caches.set_same .., live⟩, if_pos live]
        refine ⟨_, rfl, Caches.set_same .., fun key different => ?_⟩
        rw [Caches.set_other different, Caches.set_other different]
      · have gone : find (Caches.set cache (.failures text) 0 (attempt.added + attemptWindowSeconds)) (.failures text)
            attempt.counted = none := by
          rw [find_eq_none]
          intro entry' there'
          rw [Caches.set_same] at there'
          cases there'
          exact not_lt.mp live
        rw [gone, if_neg live]
        refine ⟨_, rfl, Caches.set_same .., fun key different => ?_⟩
        rw [Caches.set_other different, Caches.set_other different]

theorem recordFailure_apply (cache : Cache Key K Nat) (text : String) (attempt : Attempt K) (key : Key) :
    recordFailure cache text attempt key =
      if key = .failures text then
        (if maxAttempts ≤ (bumped cache text attempt).value then none else some (bumped cache text attempt))
      else if key = .lock text ∧ maxAttempts ≤ (bumped cache text attempt).value then
        some ⟨1, attempt.closed + lockoutSeconds⟩
      else cache key := by
  obtain ⟨cache', counted, count, others⟩ := counted_spec cache text attempt
  have left : recordFailure cache text attempt =
      if maxAttempts ≤ (bumped cache text attempt).value then
        Caches.delete (Caches.set cache' (.lock text) 1 (attempt.closed + lockoutSeconds)) (.failures text)
      else cache' := by
    unfold recordFailure
    dsimp only
    rw [counted]
  rw [left]
  by_cases full : maxAttempts ≤ (bumped cache text attempt).value
  · rw [if_pos full]
    by_cases own : key = .failures text
    · rw [own, if_pos rfl, if_pos full, Caches.delete_same]
    · rw [if_neg own, Caches.delete_other own]
      by_cases lock : key = .lock text
      · rw [lock, if_pos ⟨rfl, full⟩, Caches.set_same]
      · rw [if_neg (fun both => lock both.1), Caches.set_other lock, others key own]
  · rw [if_neg full]
    by_cases own : key = .failures text
    · rw [own, if_pos rfl, if_neg full, count]
    · rw [if_neg own, if_neg (fun both => full both.2), others key own]

/-! ## One attempt -/

omit [Field K] [LinearOrder K] in
theorem clear_apply (cache : Cache Key K Nat) (text : String) (key : Key) :
    clear cache text key = if key = .failures text ∨ key = .lock text then none else cache key := by
  unfold clear
  by_cases lock : key = .lock text
  · rw [lock, if_pos (.inr rfl), Caches.delete_same]
  · rw [Caches.delete_other lock]
    by_cases failures : key = .failures text
    · rw [failures, if_pos (.inl rfl), Caches.delete_same]
    · rw [Caches.delete_other failures, if_neg (fun either => either.elim failures lock)]

/-- An attempt is refused by the lock and changes nothing, or ends in one of three ways. -/
theorem authenticate_cases (lower : String -> String) (cache : Cache Key K Nat) (attempt : Attempt K) :
    isLocked cache (attempt.digest lower) attempt.asked = true ∧
        authenticate lower cache attempt = (.accountLocked, cache) ∨
      isLocked cache (attempt.digest lower) attempt.asked = false ∧
        (authenticate lower cache attempt =
            (.invalidCredentials, recordFailure cache (attempt.digest lower) attempt) ∨
          authenticate lower cache attempt = (.accountInactive, cache) ∨
          authenticate lower cache attempt = (.user, clear cache (attempt.digest lower))) := by
  unfold authenticate
  dsimp only
  cases isLocked cache (attempt.digest lower) attempt.asked with
  | true => exact .inl ⟨rfl, rfl⟩
  | false =>
      refine .inr ⟨rfl, ?_⟩
      rw [if_neg Bool.false_ne_true]
      cases attempt.account with
      | none => exact .inl rfl
      | some account =>
          cases matches_ : account.passwordMatches with
          | false =>
              refine .inl ?_
              dsimp only
              rw [matches_]
              rfl
          | true =>
              cases active : account.isActive with
              | false =>
                  refine .inr (.inl ?_)
                  dsimp only
                  rw [matches_, active]
                  rfl
              | true =>
                  refine .inr (.inr ?_)
                  dsimp only
                  rw [matches_, active]
                  rfl

theorem authenticate_of_locked (locked : isLocked cache (attempt.digest lower) attempt.asked = true) :
    authenticate lower cache attempt = (.accountLocked, cache) := by
  rcases authenticate_cases lower cache attempt with ⟨_, same⟩ | ⟨unlocked, _⟩
  · exact same
  · rw [locked] at unlocked
    cases unlocked

theorem authenticate_of_failed (failed : (authenticate lower cache attempt).1 = .invalidCredentials) :
    authenticate lower cache attempt = (.invalidCredentials, recordFailure cache (attempt.digest lower) attempt) := by
  rcases authenticate_cases lower cache attempt with ⟨_, same⟩ | ⟨_, same | same | same⟩
  · rw [same] at failed
    cases failed
  · exact same
  · rw [same] at failed
    cases failed
  · rw [same] at failed
    cases failed

/-- A refused attempt counts for nothing. -/
theorem cache_of_accountLocked (locked : (authenticate lower cache attempt).1 = .accountLocked) :
    (authenticate lower cache attempt).2 = cache := by
  rcases authenticate_cases lower cache attempt with ⟨_, same⟩ | ⟨_, failed | inactive | signedIn⟩
  · rw [same]
  · rw [failed] at locked
    cases locked
  · rw [inactive] at locked
    cases locked
  · rw [signedIn] at locked
    cases locked

/-- The key is of the pair. -/
def Key.isOf (text : String) : Key -> Prop
  | .failures digest => digest = text
  | .lock digest => digest = text

theorem isOf_failures : (Key.failures text).isOf text := rfl

theorem isOf_lock : (Key.lock text).isOf text := rfl

/-- An attempt leaves the entries of the other pairs. -/
theorem authenticate_other {key : Key} (own : key.isOf text) (other : attempt.digest lower ≠ text) :
    (authenticate lower cache attempt).2 key = cache key := by
  have notFailures : key ≠ .failures (attempt.digest lower) := by
    rintro rfl
    exact other own
  have notLock : key ≠ .lock (attempt.digest lower) := by
    rintro rfl
    exact other own
  rcases authenticate_cases lower cache attempt with ⟨_, same⟩ | ⟨_, failed | inactive | signedIn⟩
  · rw [same]
  · rw [failed]
    dsimp only
    rw [recordFailure_apply, if_neg notFailures, if_neg (fun both => notLock both.1)]
  · rw [inactive]
  · rw [signedIn]
    dsimp only
    rw [clear_apply, if_neg (fun either => either.elim notFailures notLock)]

theorem bumped_congr {cache' : Cache Key K Nat} (same : cache (.failures text) = cache' (.failures text)) :
    bumped cache text attempt = bumped cache' text attempt := by
  unfold bumped find
  rw [same]

/-- An attempt reads and writes the entries of its pair alone. -/
theorem authenticate_congr {cache' : Cache Key K Nat} (same : ∀ key : Key, key.isOf text -> cache key = cache' key)
    (own : attempt.digest lower = text) :
    (authenticate lower cache attempt).1 = (authenticate lower cache' attempt).1 ∧
      ∀ key : Key, key.isOf text ->
        (authenticate lower cache attempt).2 key = (authenticate lower cache' attempt).2 key := by
  have locks : isLocked cache text attempt.asked = isLocked cache' text attempt.asked := by
    unfold isLocked find
    rw [same (.lock text) rfl]
  have records : ∀ key : Key, key.isOf text ->
      recordFailure cache text attempt key = recordFailure cache' text attempt key := by
    intro key here
    rw [recordFailure_apply, recordFailure_apply, bumped_congr (same (.failures text) rfl), same key here]
  have clears : ∀ key : Key, key.isOf text -> clear cache text key = clear cache' text key := by
    intro key here
    rw [clear_apply, clear_apply, same key here]
  unfold authenticate
  dsimp only
  rw [own, locks]
  split
  · exact ⟨rfl, same⟩
  · split
    · exact ⟨rfl, records⟩
    · split
      · exact ⟨rfl, records⟩
      · split
        · exact ⟨rfl, same⟩
        · exact ⟨rfl, clears⟩

/-! ## Runs -/

theorem run_append (cache : Cache Key K Nat) (before after : List (Attempt K)) :
    run lower cache (before ++ after) = run lower (run lower cache before) after := List.foldl_append

theorem run_cons (cache : Cache Key K Nat) (attempt : Attempt K) (attempts : List (Attempt K)) :
    run lower cache (attempt :: attempts) = run lower (authenticate lower cache attempt).2 attempts := rfl

theorem answered_cons (outcome : Outcome) (cache : Cache Key K Nat) (attempt : Attempt K) (attempts : List (Attempt K)) :
    answered lower outcome text cache (attempt :: attempts) =
      (if attempt.digest lower = text ∧ (authenticate lower cache attempt).1 = outcome then [attempt] else []) ++
        answered lower outcome text (authenticate lower cache attempt).2 attempts := by
  rw [answered]
  split <;> rfl

theorem answered_append (outcome : Outcome) (cache : Cache Key K Nat) (before after : List (Attempt K)) :
    answered lower outcome text cache (before ++ after) =
      answered lower outcome text cache before ++ answered lower outcome text (run lower cache before) after := by
  induction before generalizing cache with
  | nil => rfl
  | cons attempt before ih =>
      rw [List.cons_append, answered_cons, answered_cons, ih, List.append_assoc]
      rfl

/-- The attempts of other pairs change none of this. -/
theorem answered_own (outcome : Outcome) {cache cache' : Cache Key K Nat} (attempts : List (Attempt K))
    (same : ∀ key : Key, key.isOf text -> cache key = cache' key) :
    answered lower outcome text cache attempts =
        answered lower outcome text cache' (attempts.filter (fun attempt => decide (attempt.digest lower = text))) ∧
      ∀ key : Key, key.isOf text -> run lower cache attempts key =
        run lower cache' (attempts.filter (fun attempt => decide (attempt.digest lower = text))) key := by
  induction attempts generalizing cache cache' with
  | nil => exact ⟨rfl, same⟩
  | cons attempt attempts ih =>
      by_cases own : attempt.digest lower = text
      · obtain ⟨outcomes, after⟩ := authenticate_congr same own
        have kept : decide (attempt.digest lower = text) = true := decide_eq_true own
        rw [List.filter_cons, if_pos kept, answered_cons, answered_cons, outcomes, run_cons, run_cons]
        exact ⟨congrArg _ (ih after).1, (ih after).2⟩
      · have dropped : ¬decide (attempt.digest lower = text) = true := by rwa [decide_eq_true_eq]
        rw [List.filter_cons, if_neg dropped, answered_cons,
          if_neg (fun both => own both.1), List.nil_append, run_cons]
        exact ih (fun key here => (authenticate_other here own).trans (same key here))

/-! ## Failures in a stretch -/

theorem small_recordFailure (entry : Entry K Nat)
    (there : recordFailure cache text attempt (.failures text) = some entry) : entry.value < maxAttempts := by
  rw [recordFailure_apply, if_pos rfl] at there
  split at there
  · cases there
  · rename_i short
    cases there
    exact Nat.lt_of_not_le short

section Stretch

variable {start : K} {past : List (Attempt K)} {n : Nat}

/-- The time lies after every attempt so far. -/
def After (past : List (Attempt K)) (now : K) : Prop := ∀ attempt ∈ past, attempt.finished ≤ now

/-- What is left to fail before the end of the stretch: a lock that outlasts it, a count that began before it
or in it, or nothing spent. -/
def Phase (text : String) (start : K) (n : Nat) (cache : Cache Key K Nat) : Prop :=
  n = 0 ∨ (∃ entry, cache (.lock text) = some entry ∧ start + attemptWindowSeconds ≤ entry.expiresAt) ∨
    ∃ entry, cache (.failures text) = some entry ∧
      (n ≤ entry.value ∨ start + attemptWindowSeconds ≤ entry.expiresAt ∧ n < maxAttempts + entry.value)

/-- So many checks of the pair failed in the stretch. -/
structure Tally (text : String) (start : K) (past : List (Attempt K)) (n : Nat) (cache : Cache Key K Nat) : Prop where
  few : n ≤ 2 * maxAttempts - 1
  begun : 0 < n -> ∀ now, After past now -> start ≤ now
  small : ∀ entry, cache (.failures text) = some entry -> entry.value < maxAttempts
  phase : ∀ now, After past now -> now < start + attemptWindowSeconds -> Phase text start n cache

omit [Field K] in
theorem After.of_concat {now : K} (after : After (past ++ [attempt]) now) : After past now ∧ attempt.finished ≤ now :=
  ⟨fun earlier mem => after earlier (List.mem_append_left _ mem), after attempt (List.mem_append_right _ List.mem_cons_self)⟩

/-- An attempt that leaves the pair's entries and adds no failure. -/
theorem Tally.same {cache' : Cache Key K Nat} (tally : Tally text start past n cache)
    (same : ∀ key : Key, key.isOf text -> cache' key = cache key) : Tally text start (past ++ [attempt]) n cache' := by
  refine ⟨tally.few, fun some now after => tally.begun some now after.of_concat.1, ?_, ?_⟩
  · intro entry there
    rw [same (.failures text) rfl] at there
    exact tally.small entry there
  · intro now after before
    have phase := tally.phase now after.of_concat.1 before
    unfold Phase at phase ⊢
    rw [same (.failures text) rfl, same (.lock text) rfl]
    exact phase

/-- An attempt outside the stretch that adds no failure. -/
theorem Tally.outside {cache' : Cache Key K Nat} (tally : Tally text start past n cache)
    (next : After past attempt.asked) (outside : ¬(start ≤ attempt.checked ∧ attempt.checked < start + attemptWindowSeconds))
    (small : ∀ entry, cache' (.failures text) = some entry -> entry.value < maxAttempts) :
    Tally text start (past ++ [attempt]) n cache' := by
  refine ⟨tally.few, fun some now after => tally.begun some now after.of_concat.1, small, ?_⟩
  intro now after before
  refine .inl (Nat.eq_zero_of_not_pos (fun some => outside ⟨?_, ?_⟩))
  · exact (tally.begun some attempt.asked next).trans attempt.asked_le
  · exact lt_of_le_of_lt (attempt.checked_le_finished.trans after.of_concat.2) before

variable [IsStrictOrderedRing K]

/-- A failure counts on the count that is there, or opens a new one. -/
theorem bumped_cases (cache : Cache Key K Nat) (text : String) (attempt : Attempt K) :
    (∃ entry, cache (.failures text) = some entry ∧
        bumped cache text attempt = ⟨entry.value + 1, entry.expiresAt⟩) ∨
      (∀ entry, cache (.failures text) = some entry -> entry.expiresAt ≤ attempt.counted) ∧
        (bumped cache text attempt).value = 1 ∧
        attempt.added + attemptWindowSeconds ≤ (bumped cache text attempt).expiresAt := by
  have opened : attempt.added + attemptWindowSeconds ≤ attempt.opened + attemptWindowSeconds := by
    have := attempt.added_le.trans attempt.counted_le
    linarith
  unfold bumped
  cases there : find cache (.failures text) attempt.added with
  | some entry =>
      dsimp only
      have entryThere := (find_eq_some.mp there).1
      split
      · exact .inl ⟨entry, entryThere, rfl⟩
      · rename_i expired
        refine .inr ⟨fun entry' there' => ?_, rfl, opened⟩
        rw [entryThere] at there'
        cases there'
        exact not_lt.mp expired
  | none =>
      dsimp only
      have gone : ∀ entry, cache (.failures text) = some entry -> entry.expiresAt ≤ attempt.counted :=
        fun entry there' => (find_eq_none.mp there entry there').trans attempt.added_le
      split
      · exact .inr ⟨gone, rfl, le_refl _⟩
      · exact .inr ⟨gone, rfl, opened⟩

/-- A failure in the stretch. -/
theorem Tally.failed (tally : Tally text start past n cache) (next : After past attempt.asked)
    (unlocked : isLocked cache text attempt.asked = false) (starts : start ≤ attempt.checked)
    (ends : attempt.checked < start + attemptWindowSeconds) :
    Tally text start (past ++ [attempt]) (n + 1) (recordFailure cache text attempt) := by
  have phase := tally.phase attempt.asked next (lt_of_le_of_lt attempt.asked_le ends)
  have added : start + attemptWindowSeconds ≤ attempt.added + attemptWindowSeconds := by
    have := starts.trans attempt.checked_le
    linarith
  have closed : start ≤ attempt.closed :=
    starts.trans (attempt.checked_le.trans (attempt.added_le.trans (attempt.counted_le.trans attempt.opened_le)))
  have outlasts : start + attemptWindowSeconds ≤ attempt.closed + lockoutSeconds := by
    have equal : (attemptWindowSeconds : K) = lockoutSeconds := rfl
    rw [equal]
    linarith
  have room : n = 0 ∨ ∃ entry, cache (.failures text) = some entry ∧
      (n ≤ entry.value ∨ start + attemptWindowSeconds ≤ entry.expiresAt ∧ n < maxAttempts + entry.value) := by
    rcases phase with fresh | ⟨entry, there, lasts⟩ | counting
    · exact .inl fresh
    · have locked : isLocked cache text attempt.asked = true := by
        unfold isLocked
        rw [find_eq_some.mpr ⟨there, lt_of_lt_of_le (lt_of_le_of_lt attempt.asked_le ends) lasts⟩]
        rfl
      rw [locked] at unlocked
      cases unlocked
    · exact .inr counting
  have count : n + 1 ≤ 2 * maxAttempts - 1 := by
    unfold maxAttempts at *
    rcases room with fresh | ⟨entry, there, spent⟩
    · omega
    · have small := tally.small entry there
      unfold maxAttempts at small
      omega
  refine ⟨count, fun _ now after => ?_, small_recordFailure, ?_⟩
  · exact starts.trans (attempt.checked_le_finished.trans after.of_concat.2)
  · intro now after before
    unfold Phase
    rw [recordFailure_apply, recordFailure_apply]
    by_cases full : maxAttempts ≤ (bumped cache text attempt).value
    · refine .inr (.inl ⟨⟨1, attempt.closed + lockoutSeconds⟩, ?_, outlasts⟩)
      rw [if_neg (by simp), if_pos ⟨rfl, full⟩]
    · refine .inr (.inr ⟨bumped cache text attempt, ?_, ?_⟩)
      · rw [if_pos rfl, if_neg full]
      · rcases bumped_cases cache text attempt with ⟨entry, there, more⟩ | ⟨gone, one, lasts⟩
        · rw [more]
          dsimp only
          rcases room with fresh | ⟨entry', there', spent⟩
          · exact .inl (by omega)
          · rw [there] at there'
            cases there'
            rcases spent with within | ⟨lasts, within⟩
            · exact .inl (by omega)
            · exact .inr ⟨lasts, by omega⟩
        · refine .inr ⟨added.trans lasts, ?_⟩
          rw [one]
          unfold maxAttempts at *
          rcases room with fresh | ⟨entry, there, within | ⟨lasts', _⟩⟩
          · omega
          · have small := tally.small entry there
            unfold maxAttempts at small
            omega
          · exact absurd (lasts'.trans ((gone entry there).trans (attempt.counted_le_finished.trans after.of_concat.2))) (not_le.mpr before)

/-- The password is checked in the stretch. -/
def inStretch (start : K) (attempt : Attempt K) : Bool :=
  decide (start ≤ attempt.checked ∧ attempt.checked < start + attemptWindowSeconds)

/-- The checks of a pair that fail in a stretch. -/
def failuresIn (lower : String -> String) (text : String) (start : K) (attempts : List (Attempt K)) : List (Attempt K) :=
  (answered lower .invalidCredentials text Caches.empty attempts).filter (inStretch start)

/-- No sign-in of the pair succeeds in the stretch. -/
def NoneIn (lower : String -> String) (text : String) (start : K) (attempts : List (Attempt K)) : Prop :=
  ∀ attempt ∈ answered lower .user text Caches.empty attempts, inStretch start attempt = false

theorem Tally.step (tally : Tally text start past n cache) (next : After past attempt.asked)
    (clean : attempt.digest lower = text -> (authenticate lower cache attempt).1 = .user ->
      inStretch start attempt = false) :
    Tally text start (past ++ [attempt])
      (n + ((if attempt.digest lower = text ∧ (authenticate lower cache attempt).1 = .invalidCredentials then [attempt]
        else []).filter (inStretch start)).length)
      (authenticate lower cache attempt).2 := by
  by_cases own : attempt.digest lower = text
  · rcases authenticate_cases lower cache attempt with ⟨_, same⟩ | ⟨unlocked, failed | inactive | signedIn⟩
    · rw [same, if_neg (fun both => nomatch both.2)]
      exact tally.same (fun _ _ => rfl)
    · rw [failed, if_pos ⟨own, rfl⟩]
      rw [own] at unlocked ⊢
      by_cases stretch : start ≤ attempt.checked ∧ attempt.checked < start + attemptWindowSeconds
      · have inside : inStretch start attempt = true := decide_eq_true stretch
        rw [List.filter_cons, if_pos inside]
        exact tally.failed next unlocked stretch.1 stretch.2
      · have outside : ¬inStretch start attempt = true := fun inside => stretch (of_decide_eq_true inside)
        rw [List.filter_cons, if_neg outside]
        exact tally.outside next stretch small_recordFailure
    · rw [inactive, if_neg (fun both => nomatch both.2)]
      exact tally.same (fun _ _ => rfl)
    · have outside := clean own (congrArg Prod.fst signedIn)
      rw [signedIn, if_neg (fun both => nomatch both.2)]
      refine tally.outside next (of_decide_eq_false outside) ?_
      intro entry there
      dsimp only at there
      rw [own, clear_apply, if_pos (.inl rfl)] at there
      cases there
  · rw [if_neg (fun both => own both.1)]
    exact tally.same (fun key here => authenticate_other here own)

theorem tally_run (attempts : List (Attempt K)) (timed : Timed attempts)
    (clean : NoneIn lower text start attempts) :
    Tally text start attempts (failuresIn lower text start attempts).length (run lower Caches.empty attempts) := by
  induction attempts using List.reverseRecOn with
  | nil =>
      refine ⟨Nat.zero_le _, fun some => absurd some (Nat.lt_irrefl 0), fun _ impossible => (nomatch impossible),
        fun _ _ _ => .inl rfl⟩
  | append_singleton past attempt ih =>
      unfold Timed at timed
      rw [List.pairwise_append] at timed
      unfold NoneIn at clean
      rw [answered_append] at clean
      have tally := ih timed.1 (fun earlier mem => clean earlier (List.mem_append_left _ mem))
      have next : After past attempt.asked := fun earlier mem => timed.2.2 earlier mem attempt List.mem_cons_self
      have outside : attempt.digest lower = text ->
          (authenticate lower (run lower Caches.empty past) attempt).1 = .user -> inStretch start attempt = false := by
        intro own signedIn
        refine clean attempt (List.mem_append_right _ ?_)
        rw [answered_cons, if_pos ⟨own, signedIn⟩]
        exact List.mem_cons_self
      have last := tally.step next outside
      have tail : answered lower .invalidCredentials text (run lower Caches.empty past) [attempt] =
          if attempt.digest lower = text ∧
            (authenticate lower (run lower Caches.empty past) attempt).1 = .invalidCredentials then [attempt] else [] := by
        rw [answered_cons]
        exact List.append_nil _
      unfold failuresIn
      rw [answered_append, List.filter_append, List.length_append, run_append, tail]
      exact last

end Stretch

/-! ## The lock -/

/-- The end of the window that a failure opens. -/
def Attempt.windowEnd (attempt : Attempt K) : K :=
  if attempt.counted < attempt.added + attemptWindowSeconds then attempt.added + attemptWindowSeconds
  else attempt.opened + attemptWindowSeconds

theorem bumped_opens (gone : find cache (.failures text) attempt.added = none) :
    bumped cache text attempt = ⟨1, attempt.windowEnd⟩ := by
  unfold bumped Attempt.windowEnd
  rw [gone]
  dsimp only
  split <;> rfl

theorem bumped_counts {count : Nat} {windowEnd : K} (there : cache (.failures text) = some ⟨count, windowEnd⟩)
    (live : attempt.counted < windowEnd) : bumped cache text attempt = ⟨count + 1, windowEnd⟩ := by
  unfold bumped
  rw [find_eq_some.mpr ⟨there, lt_of_le_of_lt attempt.added_le live⟩]
  dsimp only
  rw [if_pos live]

/-- The last allowed failure of a window sets the lock, and the count is gone. -/
theorem lock_of_row {last : Attempt K} {windowEnd : K} (own : last.digest lower = text) (within : last.counted < windowEnd)
    {cache : Cache Key K Nat} {count : Nat} (row : List (Attempt K))
    (there : cache (.failures text) = some ⟨count, windowEnd⟩)
    (earlier : ∀ attempt ∈ row, attempt.finished ≤ last.asked)
    (failed : (authenticate lower (run lower cache row) last).1 = .invalidCredentials)
    (full : count + (answered lower .invalidCredentials text cache (row ++ [last])).length = maxAttempts)
    (noSuccess : answered lower .user text cache (row ++ [last]) = []) :
    run lower cache (row ++ [last]) (.lock text) = some ⟨1, last.closed + lockoutSeconds⟩ ∧
      run lower cache (row ++ [last]) (.failures text) = none := by
  induction row generalizing cache count with
  | nil =>
      have one : (answered lower .invalidCredentials text cache ([] ++ [last])).length = 1 := by
        rw [List.nil_append, answered_cons, if_pos ⟨own, failed⟩]
        rfl
      have record : (authenticate lower cache last).2 = recordFailure cache text last := by
        have same : authenticate lower cache last = _ := authenticate_of_failed failed
        rw [same, own]
      have value : maxAttempts ≤ (bumped cache text last).value := by
        rw [bumped_counts there within, ← full, one]
      have here : run lower cache ([] ++ [last]) = recordFailure cache text last := record
      rw [here, recordFailure_apply, recordFailure_apply]
      refine ⟨?_, ?_⟩
      · rw [if_neg (by simp), if_pos ⟨rfl, value⟩]
      · rw [if_pos rfl, if_pos value]
  | cons attempt row ih =>
      rw [List.cons_append] at full noSuccess ⊢
      rw [answered_cons] at full noSuccess
      rw [run_cons] at failed ⊢
      have rest : ∀ attempt ∈ row, attempt.finished ≤ last.asked := fun a mem => earlier a (List.mem_cons_of_mem _ mem)
      by_cases mine : attempt.digest lower = text
      · rcases authenticate_cases lower cache attempt with ⟨_, same⟩ | ⟨_, same | same | same⟩
        · rw [same] at full noSuccess failed ⊢
          rw [if_neg (fun both => nomatch both.2)] at full noSuccess
          exact ih there rest failed full noSuccess
        · rw [same] at full noSuccess failed ⊢
          rw [if_pos ⟨mine, rfl⟩] at full
          rw [if_neg (fun both => nomatch both.2)] at noSuccess
          dsimp only at full failed
          have live : attempt.counted < windowEnd := by
            have finished := earlier attempt List.mem_cons_self
            have upTo := attempt.counted_le_finished.trans (finished.trans last.asked_le_counted)
            exact lt_of_le_of_lt upTo within
          have further : 1 ≤ (answered lower .invalidCredentials text (recordFailure cache (attempt.digest lower) attempt)
              (row ++ [last])).length := by
            rw [answered_append, answered_cons, if_pos ⟨own, failed⟩, List.length_append]
            exact Nat.le_add_left _ _
          rw [List.length_append, List.length_singleton] at full
          have short : ¬maxAttempts ≤ (bumped cache text attempt).value := by
            rw [bumped_counts there live]
            dsimp only
            omega
          have counted : recordFailure cache (attempt.digest lower) attempt (.failures text) =
              some ⟨count + 1, windowEnd⟩ := by
            rw [mine, recordFailure_apply, if_pos rfl, if_neg short, bumped_counts there live]
          refine ih counted rest failed ?_ noSuccess
          dsimp only
          omega
        · rw [same] at full noSuccess failed ⊢
          rw [if_neg (fun both => nomatch both.2)] at full noSuccess
          exact ih there rest failed full noSuccess
        · rw [same, if_pos ⟨mine, rfl⟩] at noSuccess
          cases noSuccess
      · rw [if_neg (fun both => mine both.1)] at full noSuccess
        exact ih ((authenticate_other isOf_failures mine).trans there) rest failed full noSuccess

/-- As long as the lock lasts, the attempts of the pair leave it as it is. -/
theorem lock_stays {expiry : K} (refused : List (Attempt K)) {cache : Cache Key K Nat}
    (lock : cache (.lock text) = some ⟨1, expiry⟩) (count : cache (.failures text) = none)
    (during : ∀ attempt ∈ refused, attempt.asked < expiry) :
    run lower cache refused (.lock text) = some ⟨1, expiry⟩ ∧ run lower cache refused (.failures text) = none := by
  induction refused generalizing cache with
  | nil => exact ⟨lock, count⟩
  | cons attempt refused ih =>
      have rest : ∀ attempt ∈ refused, attempt.asked < expiry := fun a mem => during a (List.mem_cons_of_mem _ mem)
      rw [run_cons]
      by_cases mine : attempt.digest lower = text
      · have locked : isLocked cache (attempt.digest lower) attempt.asked = true := by
          unfold isLocked
          rw [mine, find_eq_some.mpr ⟨lock, during attempt List.mem_cons_self⟩]
          rfl
        rw [authenticate_of_locked locked]
        exact ih lock count rest
      · exact ih ((authenticate_other isOf_lock mine).trans lock) ((authenticate_other isOf_failures mine).trans count) rest

/-- The last allowed failure in a window that the first of them opened, with no success in between. -/
structure LocksAt (lower : String -> String) (text : String) (before : List (Attempt K)) (first : Attempt K)
    (middle : List (Attempt K)) (last : Attempt K) : Prop where
  firstOwn : first.digest lower = text
  lastOwn : last.digest lower = text
  opens : find (run lower Caches.empty before) (.failures text) first.added = none
  firstFails : (authenticate lower (run lower Caches.empty before) first).1 = .invalidCredentials
  lastFails : (authenticate lower (run lower Caches.empty (before ++ first :: middle)) last).1 = .invalidCredentials
  full : (answered lower .invalidCredentials text (run lower Caches.empty before) (first :: middle ++ [last])).length =
    maxAttempts
  noSuccess : answered lower .user text (run lower Caches.empty before) (first :: middle ++ [last]) = []
  within : last.counted < first.windowEnd

variable {before middle : List (Attempt K)} {first last : Attempt K}

theorem LocksAt.locks (locks : LocksAt lower text before first middle last)
    (earlier : ∀ attempt ∈ middle, attempt.finished ≤ last.asked) :
    run lower Caches.empty (before ++ (first :: middle ++ [last])) (.lock text) =
        some ⟨1, last.closed + lockoutSeconds⟩ ∧
      run lower Caches.empty (before ++ (first :: middle ++ [last])) (.failures text) = none := by
  have failed : authenticate lower (run lower Caches.empty before) first =
      (.invalidCredentials, recordFailure (run lower Caches.empty before) text first) := by
    rw [authenticate_of_failed locks.firstFails, locks.firstOwn]
  have full := locks.full
  have noSuccess := locks.noSuccess
  have lastFails := locks.lastFails
  rw [List.cons_append, answered_cons, failed] at full noSuccess
  rw [if_pos ⟨locks.firstOwn, rfl⟩, List.length_append, List.length_singleton] at full
  rw [if_neg (fun both => nomatch both.2)] at noSuccess
  rw [run_append, run_cons, failed] at lastFails
  rw [run_append, List.cons_append, run_cons, failed]
  have count : recordFailure (run lower Caches.empty before) text first (.failures text) = some ⟨1, first.windowEnd⟩ := by
    rw [recordFailure_apply, if_pos rfl, bumped_opens locks.opens]
    rfl
  exact lock_of_row locks.lastOwn locks.within middle count earlier lastFails full noSuccess

/-- Until the lock ends, every attempt of the pair is refused. -/
theorem LocksAt.refuses (locks : LocksAt lower text before first middle last) {between later : List (Attempt K)}
    {attempt : Attempt K} (timed : Timed (before ++ (first :: middle ++ [last]) ++ (between ++ attempt :: later)))
    (own : attempt.digest lower = text) (during : attempt.asked < last.closed + lockoutSeconds) :
    (authenticate lower (run lower Caches.empty (before ++ (first :: middle ++ [last]) ++ between)) attempt).1 =
        .accountLocked ∧
      run lower Caches.empty (before ++ (first :: middle ++ [last]) ++ between) (.lock text) =
        some ⟨1, last.closed + lockoutSeconds⟩ ∧
      run lower Caches.empty (before ++ (first :: middle ++ [last]) ++ between) (.failures text) = none := by
  unfold Timed at timed
  rw [List.pairwise_append] at timed
  obtain ⟨upTo, fromThen, _⟩ := timed
  have earlier : ∀ other ∈ middle, other.finished ≤ last.asked := by
    have row := (List.pairwise_append.mp upTo).2.1
    rw [List.cons_append, List.pairwise_cons, List.pairwise_append] at row
    exact fun other mem => row.2.2.2 other mem last List.mem_cons_self
  have inTime : ∀ other ∈ between, other.asked < last.closed + lockoutSeconds := by
    intro other mem
    have next := (List.pairwise_append.mp fromThen).2.2 other mem attempt List.mem_cons_self
    refine lt_of_le_of_lt (le_trans ?_ next) during
    exact other.asked_le.trans other.checked_le_finished
  obtain ⟨lock, count⟩ := locks.locks earlier
  obtain ⟨lock, count⟩ := lock_stays between lock count inTime
  rw [← run_append] at lock count
  refine ⟨?_, lock, count⟩
  have locked : isLocked (run lower Caches.empty (before ++ (first :: middle ++ [last]) ++ between))
      (attempt.digest lower) attempt.asked = true := by
    unfold isLocked
    rw [own, find_eq_some.mpr ⟨lock, during⟩]
    rfl
  rw [authenticate_of_locked locked]

/-! ## Pairs -/

/-- The address half of a pair. -/
def address (ip : Option String) : String :=
  match ip with
  | none => "unknown"
  | some ip => if ip.isEmpty then "unknown" else ip

theorem eq_of_separated {α : Type} {mark : α} {left left' right right' : List α} (absent : mark ∉ left)
    (absent' : mark ∉ left') (same : left ++ mark :: right = left' ++ mark :: right') : left = left' ∧ right = right' := by
  rcases List.append_eq_append_iff.mp same with ⟨between, left_eq, right_eq⟩ | ⟨between, left_eq, right_eq⟩
  · cases between with
    | nil =>
        rw [List.append_nil] at left_eq
        cases right_eq
        exact ⟨left_eq.symm, rfl⟩
    | cons first between =>
        cases right_eq
        rw [left_eq] at absent'
        exact absurd (List.mem_append_right _ List.mem_cons_self) absent'
  · cases between with
    | nil =>
        rw [List.append_nil] at left_eq
        cases right_eq
        exact ⟨left_eq, rfl⟩
    | cons first between =>
        cases right_eq
        rw [left_eq] at absent
        exact absurd (List.mem_append_right _ List.mem_cons_self) absent

/-- The separator cannot be moved into an e-mail. -/
theorem digest_inj {email email' : String} {ip ip' : Option String} (plain : '\x00' ∉ (lower email).toList)
    (plain' : '\x00' ∉ (lower email').toList) :
    digest lower email ip = digest lower email' ip' ↔ lower email = lower email' ∧ address ip = address ip' := by
  constructor
  · intro same
    have lists : (lower email).toList ++ '\x00' :: (address ip).toList =
        (lower email').toList ++ '\x00' :: (address ip').toList := by
      have halves := congrArg String.toList same
      unfold digest at halves
      simp only [String.toList_append, List.append_assoc] at halves
      exact halves
    obtain ⟨emails, addresses⟩ := eq_of_separated plain plain' lists
    exact ⟨String.toList_inj.mp emails, String.toList_inj.mp addresses⟩
  · rintro ⟨emails, addresses⟩
    have texts : lower email ++ "\x00" ++ address ip = lower email' ++ "\x00" ++ address ip' := by
      rw [emails, addresses]
    exact texts

/-! ## The lockout -/

/-- Sign-in lockout. -/
theorem lockout_holds [IsStrictOrderedRing K] (lower : String -> String) (attempts : List (Attempt K))
    (timed : Timed attempts) (text : String) :
    (∀ start, NoneIn lower text start attempts ->
        (failuresIn lower text start attempts).length ≤ 2 * maxAttempts - 1) ∧
      (∀ before first middle last between attempt later,
        attempts = before ++ (first :: middle ++ [last]) ++ (between ++ attempt :: later) ->
        LocksAt lower text before first middle last -> attempt.digest lower = text ->
        attempt.asked < last.closed + lockoutSeconds ->
          (authenticate lower (run lower Caches.empty (before ++ (first :: middle ++ [last]) ++ between)) attempt).1 =
              .accountLocked ∧
            run lower Caches.empty (before ++ (first :: middle ++ [last]) ++ between) (.lock text) =
              some ⟨1, last.closed + lockoutSeconds⟩ ∧
            run lower Caches.empty (before ++ (first :: middle ++ [last]) ++ between) (.failures text) = none) ∧
      (∀ before attempt later, attempts = before ++ attempt :: later ->
        (authenticate lower (run lower Caches.empty before) attempt).1 = .accountLocked ->
          run lower Caches.empty (before ++ [attempt]) = run lower Caches.empty before) ∧
      (∀ outcome, answered lower outcome text Caches.empty attempts =
        answered lower outcome text Caches.empty
          (attempts.filter (fun attempt => decide (attempt.digest lower = text)))) ∧
      (∀ key : Key, key.isOf text -> run lower Caches.empty attempts key =
        run lower Caches.empty (attempts.filter (fun attempt => decide (attempt.digest lower = text))) key) ∧
      ∀ one other : Attempt K, '\x00' ∉ (lower (lower one.email)).toList -> '\x00' ∉ (lower (lower other.email)).toList ->
        (one.digest lower = other.digest lower ↔
          lower (lower one.email) = lower (lower other.email) ∧ address one.ip = address other.ip) := by
  refine ⟨fun start clean => (tally_run attempts timed clean).few, ?_, ?_, ?_, ?_, ?_⟩
  · rintro before first middle last between attempt later rfl locks own during
    exact locks.refuses timed own during
  · intro before attempt later _ locked
    rw [run_append]
    exact cache_of_accountLocked locked
  · intro outcome
    exact (answered_own outcome attempts (fun _ _ => rfl)).1
  · exact (answered_own .user attempts (fun _ _ => rfl)).2
  · intro one other plain plain'
    exact digest_inj plain plain'

/-- An attempt that takes no time. -/
def Attempt.instant (passwordMatches : Bool) (time : K) : Attempt K where
  email := "a@b.com"
  ip := some "192.0.2.1"
  account := some ⟨passwordMatches, true⟩
  asked := time
  checked := time
  added := time
  counted := time
  opened := time
  closed := time
  finished := time
  asked_le := le_refl time
  checked_le := le_refl time
  added_le := le_refl time
  counted_le := le_refl time
  opened_le := le_refl time
  closed_le := le_refl time

/-- After five wrong passwords in four minutes the right one is refused. -/
theorem lockout_holds_of_five :
    (authenticate id (run id Caches.empty [Attempt.instant (K := ℚ) false 0, .instant false 60, .instant false 120,
      .instant false 180, .instant false 240]) (.instant true 300)).1 = .accountLocked := by
  have timed : Timed [Attempt.instant (K := ℚ) false 0, .instant false 60, .instant false 120, .instant false 180,
      .instant false 240, .instant true 300] := by
    unfold Timed
    decide +kernel
  have locks : LocksAt id "a@b.com\x00192.0.2.1" [] (Attempt.instant (K := ℚ) false 0)
      [.instant false 60, .instant false 120, .instant false 180] (.instant false 240) := by
    constructor
    all_goals decide +kernel
  exact ((lockout_holds id _ timed "a@b.com\x00192.0.2.1").2.1 [] _ _ _ [] _ [] rfl locks (by decide +kernel)
    (by decide +kernel)).1

end Lockout
end Users
end Shiftlush
