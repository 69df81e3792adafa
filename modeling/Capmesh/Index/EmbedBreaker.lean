import Capmesh.Execution.Run

/-!
# The circuit breaker of the embedding service

`embed_text` asks a service that may hang, from as many threads as there are requests. They share
one breaker, which is read before a call and written after it, each time under the lock.
`embed_request_iff` says from the failures of the calls when a thread asks the service.
-/

namespace Capmesh

open Execution

/-- A call that failed, with the settings and the clock that are read when it is recorded. -/
structure EmbedFailure where
  hardDeadlineFired : Bool
  threshold : Int
  cooldown : Int
  now : Nat

/-- `_embed_breaker_failures` and `_embed_breaker_tripped_until`. -/
structure EmbedBreaker where
  failures : Nat := 0
  trippedUntil : Int := 0

/-- `_embed_breaker_allows`. -/
def EmbedBreaker.allows (breaker : EmbedBreaker) (now : Nat) : Bool := breaker.trippedUntil ≤ now

/-- `_embed_breaker_record_failure`. -/
def EmbedBreaker.recordFailure (breaker : EmbedBreaker) (failure : EmbedFailure) : EmbedBreaker :=
  let failures := breaker.failures + 1
  if failure.hardDeadlineFired || failure.threshold ≤ failures then
    { failures, trippedUntil := failure.now + failure.cooldown }
  else { breaker with failures }

/-- `_embed_breaker_record_success`. -/
def EmbedBreaker.recordSuccess : EmbedBreaker := {}

/-- The breaker, the threads whose call has not come back, and the failures since the last success,
the newest first. -/
structure EmbedService where
  breaker : EmbedBreaker := {}
  asking : List String := []
  streak : List EmbedFailure := []

/-- A thread enters `embed_text`, or its call to the service comes back. -/
inductive EmbedAction where
  | enter (thread provider : String) (hostAllowed : Bool) (now : Nat)
  | leave (thread : String) (failure : Option EmbedFailure)

/-- The providers that answer in the process. -/
def localProviders : List String := ["sentence-transformers", "lexical"]

/-- `embed_text`, cut where the thread waits for the service. -/
def embedStep (service : EmbedService) : EmbedAction → EmbedService
  | .enter thread provider hostAllowed now =>
      if localProviders.contains provider then service
      else if !service.breaker.allows now then service
      else if !hostAllowed then service
      else { service with asking := thread :: service.asking }
  | .leave thread outcome =>
      if service.asking.contains thread then
        match outcome with
        | none => { breaker := .recordSuccess, asking := service.asking.erase thread }
        | some failure =>
            { breaker := service.breaker.recordFailure failure
              asking := service.asking.erase thread, streak := failure :: service.streak }
      else service

/-- A failure trips the breaker if its deadline fired, or if with it the streak has reached the
threshold. -/
def EmbedFailure.Trips (failure : EmbedFailure) (before : List EmbedFailure) : Prop :=
  failure.hardDeadlineFired = true ∨ failure.threshold ≤ (before.length + 1 : Nat)

/-- The last failure of a streak that trips has not cooled down. -/
def BreakerOpen (streak : List EmbedFailure) (now : Nat) : Prop :=
  ∃ later trip earlier, streak = later ++ trip :: earlier ∧ trip.Trips earlier ∧
    (now : Int) < trip.now + trip.cooldown ∧ ∀ first failure second,
      later = first ++ failure :: second → ¬ failure.Trips (second ++ trip :: earlier)

/-- The newest failure decides, or leaves the breaker to the ones before. -/
theorem breaker_open_cons (failure : EmbedFailure) (streak : List EmbedFailure) (now : Nat) :
    BreakerOpen (failure :: streak) now ↔
      (failure.Trips streak ∧ (now : Int) < failure.now + failure.cooldown) ∨
        (¬ failure.Trips streak ∧ BreakerOpen streak now) := by
  constructor
  · rintro ⟨later, trip, earlier, hsplit, htrips, hwarm, hlater⟩
    cases later with
    | nil =>
        cases hsplit
        exact .inl ⟨htrips, hwarm⟩
    | cons newest later =>
        cases hsplit
        exact .inr ⟨hlater [] failure later rfl, later, trip, earlier, rfl, htrips, hwarm,
          fun first other second heq => hlater (failure :: first) other second (by rw [heq]; rfl)⟩
  · rintro (⟨htrips, hwarm⟩ | ⟨hquiet, later, trip, earlier, rfl, htrips, hwarm, hlater⟩)
    · exact ⟨[], failure, streak, rfl, htrips, hwarm, by simp⟩
    · refine ⟨failure :: later, trip, earlier, rfl, htrips, hwarm, fun first other second heq => ?_⟩
      cases first with
      | nil =>
          cases heq
          exact hquiet
      | cons newest first =>
          cases heq
          exact hlater first other second rfl

/-- The two numbers of the breaker are those of the streak. -/
structure EmbedService.Counted (service : EmbedService) : Prop where
  failures : service.breaker.failures = service.streak.length
  allows : ∀ now, service.breaker.allows now = true ↔ ¬ BreakerOpen service.streak now

theorem counted_start : ({} : EmbedService).Counted where
  failures := rfl
  allows now := by simp [EmbedBreaker.allows, BreakerOpen]

/-- A failed call is counted. -/
theorem EmbedService.Counted.failure {service : EmbedService} (h : service.Counted)
    (failure : EmbedFailure) (asking : List String) :
    EmbedService.Counted ⟨service.breaker.recordFailure failure, asking,
      failure :: service.streak⟩ := by
  have htrips : (failure.hardDeadlineFired ||
      failure.threshold ≤ (service.breaker.failures + 1 : Nat)) = true ↔
        failure.Trips service.streak := by simp [EmbedFailure.Trips, h.failures]
  unfold EmbedBreaker.recordFailure
  by_cases htrip : failure.Trips service.streak
  · refine ⟨?_, fun now => ?_⟩ <;> simp only [if_pos (htrips.mpr htrip)]
    · exact congrArg (· + 1) h.failures
    · simp [breaker_open_cons, htrip, EmbedBreaker.allows]
  · refine ⟨?_, fun now => ?_⟩ <;> simp only [if_neg (mt htrips.mp htrip)]
    · exact congrArg (· + 1) h.failures
    · simpa [breaker_open_cons, htrip, EmbedBreaker.allows] using h.allows now

/-- A step of any thread keeps the numbers. -/
theorem EmbedService.Counted.step {service : EmbedService} (h : service.Counted)
    (action : EmbedAction) : (embedStep service action).Counted := by
  cases action with
  | enter thread provider hostAllowed now =>
      simp only [embedStep]
      split_ifs <;> exact ⟨h.failures, h.allows⟩
  | leave thread outcome =>
      simp only [embedStep]
      split
      · cases outcome with
        | none => exact ⟨counted_start.failures, counted_start.allows⟩
        | some failure => exact h.failure failure _
      · exact h

/-- Over every interleaving of the threads, one that enters asks the service exactly when its
provider is a service on an allowed host, and the last failure to trip the breaker since a call
succeeded has cooled down. -/
theorem embed_request_iff (actions : List EmbedAction) (thread provider : String)
    (hostAllowed : Bool) (now : Nat) :
    let service := run embedStep {} actions
    (embedStep service (.enter thread provider hostAllowed now)).asking =
        thread :: service.asking ↔
      provider ∉ localProviders ∧ hostAllowed = true ∧ ¬ BreakerOpen service.streak now := by
  intro service
  have hcounted : service.Counted :=
    run_invariant (fun _ action h => h.step action) actions counted_start
  rw [← hcounted.allows now]
  simp only [embedStep]
  split_ifs <;> simp_all

end Capmesh
