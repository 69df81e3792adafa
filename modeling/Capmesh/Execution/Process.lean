import Capmesh.Execution.Run
import Mathlib.Logic.Function.Basic

/-!
# Processes that share a state

A `Process` is a program as the sequence of its atomic operations on a shared state. An operation
may have to wait until it is ready; the rest of the program goes on with the state the operation
found. `run` lets one process run alone to its end and `crash` cuts it off after some number of
operations. A `Pool` runs any number of processes together: an event starts one, lets one do its
next operation, or crashes one.

`Meets` is the rely-guarantee judgement: whatever the others do within `rely` before each operation,
the operation itself stays within `guar`, and the end meets `post`. `pool_meets` is the rule for a
pool: when what each process guarantees is what every other one relies on, each process of every
run meets its judgement.
-/

namespace Execution

/-- A program as the sequence of its atomic operations. -/
inductive Process (σ ε α : Type) where
  | done (value : α)
  | failed (failure : ε)
  | act (ready : σ → Bool) (effect : σ → σ) (next : σ → Process σ ε α)

namespace Process

variable {σ ε α β : Type}

/-- Sequencing. -/
def bind : Process σ ε α → (α → Process σ ε β) → Process σ ε β
  | done value, f => f value
  | failed failure, _ => failed failure
  | act ready effect next, f => act ready effect fun state => (next state).bind f

instance : Monad (Process σ ε) where
  pure := done
  bind := bind

/-- Raise a failure. -/
def raise (failure : ε) : Process σ ε α := failed failure

/-- One operation that reads the state and leaves it as it is. -/
def look (read : σ → β) : Process σ ε β := act (fun _ => true) id fun state => done (read state)

/-- One operation that changes the state. -/
def change (effect : σ → σ) : Process σ ε Unit := act (fun _ => true) effect fun _ => done ()

/-- One operation that waits for a condition and changes the state. -/
def await (ready : σ → Bool) (effect : σ → σ) : Process σ ε Unit :=
  act ready effect fun _ => done ()

/-- One operation that reads the state, and changes it or fails on what it read. -/
def attempt (effect : σ → σ) (read : σ → Except ε β) : Process σ ε β :=
  act (fun _ => true) effect fun state =>
    match read state with
    | .ok value => done value
    | .error failure => failed failure

/-- A computation without an operation of its own. -/
def lift : Except ε α → Process σ ε α
  | .ok value => done value
  | .error failure => failed failure

/-- `try: … finally: …`: the last process runs however the first one ends. -/
def ensure (body : Process σ ε α) (last : Process σ ε Unit) : Process σ ε α :=
  match body with
  | done value => last.bind fun _ => done value
  | failed failure => last.bind fun _ => failed failure
  | act ready effect next => act ready effect fun state => (next state).ensure last

/-- A process that runs alone to its end, if no operation waits forever. -/
def run : Process σ ε α → σ → σ × Option (Except ε α)
  | done value, state => (state, some (.ok value))
  | failed failure, state => (state, some (.error failure))
  | act ready effect next, state =>
      if ready state then (next state).run (effect state) else (state, none)

/-- The state in which a process leaves things when it is cut off after some operations. -/
def crash : Nat → Process σ ε α → σ → σ
  | fuel + 1, act ready effect next, state =>
      if ready state then crash fuel (next state) (effect state) else state
  | _, _, state => state

/-- The end of a process, if it has come to it. -/
def outcome : Process σ ε α → Option (Except ε α)
  | done value => some (.ok value)
  | failed failure => some (.error failure)
  | act .. => none

@[simp] theorem pure_eq (value : α) : (pure value : Process σ ε α) = done value := rfl

@[simp] theorem bind_eq (first : Process σ ε α) (next : α → Process σ ε β) :
    first >>= next = first.bind next := rfl

@[simp] theorem done_bind (value : α) (f : α → Process σ ε β) : (done value).bind f = f value := rfl

@[simp] theorem failed_bind (failure : ε) (f : α → Process σ ε β) :
    (failed failure).bind f = failed failure := rfl

@[simp] theorem act_bind (ready : σ → Bool) (effect : σ → σ) (next : σ → Process σ ε α)
    (f : α → Process σ ε β) :
    (act ready effect next).bind f = act ready effect fun state => (next state).bind f := rfl

/-! ### The rely-guarantee judgement -/

/-- Whatever the others do within `rely`, every operation stays within `guar` and the end, once it
is reached, meets `post` from then on. -/
def Meets (rely guar : σ → σ → Prop) (post : Except ε α → σ → Prop) : Process σ ε α → σ → Prop
  | done value, state => ∀ later, rely state later → post (.ok value) later
  | failed failure, state => ∀ later, rely state later → post (.error failure) later
  | act ready effect next, state => ∀ later, rely state later → ready later = true →
      guar later (effect later) ∧ (next later).Meets rely guar post (effect later)

section

variable {rely guar : σ → σ → Prop} {post mid : Except ε α → σ → Prop} {p : Process σ ε α}
variable {state : σ}

/-- A judgement survives what the others do. -/
theorem Meets.later (htrans : ∀ {a b c}, rely a b → rely b c → rely a c) {later : σ}
    (h : p.Meets rely guar post state) (hrely : rely state later) :
    p.Meets rely guar post later := by
  cases p with
  | done value => exact fun last hlast => h last (htrans hrely hlast)
  | failed failure => exact fun last hlast => h last (htrans hrely hlast)
  | act ready effect next => exact fun last hlast => h last (htrans hrely hlast)

/-- The rule of consequence. -/
theorem Meets.mono (h : p.Meets rely guar mid state)
    (hpost : ∀ outcome last, mid outcome last → post outcome last) :
    p.Meets rely guar post state := by
  induction p generalizing state with
  | done value => exact fun later hrely => hpost _ _ (h later hrely)
  | failed failure => exact fun later hrely => hpost _ _ (h later hrely)
  | act ready effect next ih =>
      intro later hrely hready
      obtain ⟨hguar, hnext⟩ := h later hrely hready
      exact ⟨hguar, ih later hnext⟩

/-- The rule of sequencing: what the first process ends with is where the second one starts. -/
theorem Meets.bind {post : Except ε β → σ → Prop} {f : α → Process σ ε β}
    (h : p.Meets rely guar mid state)
    (hok : ∀ value last, (∀ later, rely last later → mid (.ok value) later) →
      (f value).Meets rely guar post last)
    (herror : ∀ failure last, mid (.error failure) last → post (.error failure) last) :
    (p.bind f).Meets rely guar post state := by
  induction p generalizing state with
  | done value => exact hok value state h
  | failed failure => exact fun later hrely => herror _ _ (h later hrely)
  | act ready effect next ih =>
      intro later hrely hready
      obtain ⟨hguar, hnext⟩ := h later hrely hready
      exact ⟨hguar, ih later hnext⟩

/-- The rule of `finally`: the last process keeps the end of the body, unless it fails itself. -/
theorem Meets.ensure {last : Process σ ε Unit} (h : p.Meets rely guar mid state)
    (hlast : ∀ outcome ended, (∀ later, rely ended later → mid outcome later) →
      last.Meets rely guar (fun final => post (final.bind fun _ => outcome)) ended) :
    (p.ensure last).Meets rely guar post state := by
  induction p generalizing state with
  | done value => exact (hlast _ state h).bind (fun _ _ hended => hended) fun _ _ hended => hended
  | failed failure =>
      exact (hlast _ state h).bind (fun _ _ hended => hended) fun _ _ hended => hended
  | act ready effect next ih =>
      intro later hrely hready
      obtain ⟨hguar, hnext⟩ := h later hrely hready
      exact ⟨hguar, ih later hnext⟩

end

/-! ### One process alone -/

variable {guar R : σ → σ → Prop} {post : Except ε α → σ → Prop}

/-- What every operation guarantees relates the start of a process to where it was cut off. -/
theorem Meets.crash_related (hrefl : ∀ a, R a a) (htrans : ∀ {a b c}, R a b → R b c → R a c)
    (hguar : ∀ {a b}, guar a b → R a b) {p : Process σ ε α} {state : σ}
    (h : p.Meets (· = ·) guar post state) (fuel : Nat) : R state (p.crash fuel state) := by
  induction fuel generalizing p state with
  | zero => cases p <;> exact hrefl state
  | succ fuel ih =>
      cases p with
      | done value => exact hrefl state
      | failed failure => exact hrefl state
      | act ready effect next =>
          simp only [crash]
          split
          · rename_i hready
            obtain ⟨hfirst, hnext⟩ := h state rfl hready
            exact htrans (hguar hfirst) (ih hnext)
          · exact hrefl state

/-- A process that runs alone relates its start to its end, and its end meets `post`. -/
theorem Meets.run_related (hrefl : ∀ a, R a a) (htrans : ∀ {a b c}, R a b → R b c → R a c)
    (hguar : ∀ {a b}, guar a b → R a b) {p : Process σ ε α} {state : σ}
    (h : p.Meets (· = ·) guar post state) :
    R state (p.run state).1 ∧ ∀ outcome, (p.run state).2 = some outcome →
      post outcome (p.run state).1 := by
  induction p generalizing state with
  | done value =>
      refine ⟨hrefl state, fun outcome houtcome => ?_⟩
      cases houtcome
      exact h state rfl
  | failed failure =>
      refine ⟨hrefl state, fun outcome houtcome => ?_⟩
      cases houtcome
      exact h state rfl
  | act ready effect next ih =>
      simp only [run]
      split
      · rename_i hready
        obtain ⟨hfirst, hnext⟩ := h state rfl hready
        obtain ⟨hrest, hend⟩ := ih state hnext
        exact ⟨htrans (hguar hfirst) hrest, hend⟩
      · exact ⟨hrefl state, fun _ houtcome => nomatch houtcome⟩

end Process

/-! ### Pools -/

/-- A shared state and the processes at work on it, by their number. -/
structure Pool (σ ε α : Type) where
  state : σ
  tasks : Nat → Option (Process σ ε α)

/-- What a schedule does: start a call under a number, let a process do its next operation, or
crash it. -/
inductive Event (κ : Type) where
  | start (task : Nat) (call : κ)
  | advance (task : Nat)
  | crash (task : Nat)

namespace Pool

variable {σ ε α κ : Type}

/-- A pool at rest. -/
def idle (state : σ) : Pool σ ε α := ⟨state, fun _ => none⟩

/-- One event. A number is taken again once its process has crashed; `release` is what the system
gives back on behalf of a crashed process. An operation that is not ready waits. -/
def step (program : Nat → κ → Process σ ε α) (release : Nat → σ → σ) (pool : Pool σ ε α) :
    Event κ → Pool σ ε α
  | .start task call =>
      match pool.tasks task with
      | none => { pool with tasks := Function.update pool.tasks task (some (program task call)) }
      | some _ => pool
  | .advance task =>
      match pool.tasks task with
      | some (.act ready effect next) =>
          if ready pool.state then
            ⟨effect pool.state, Function.update pool.tasks task (some (next pool.state))⟩
          else pool
      | _ => pool
  | .crash task =>
      match pool.tasks task with
      | some (.act ..) => ⟨release task pool.state, Function.update pool.tasks task none⟩
      | _ => pool

/-- What makes a family of judgements hold together in a pool: the guarantee of each process is
within the reliance of every other one. `inv` holds throughout, `pre` holds for a number that no
process has, and `R` relates the states of a run. -/
structure Discipline (program : Nat → κ → Process σ ε α) (release : Nat → σ → σ)
    (inv : σ → Prop) (R : σ → σ → Prop) (rely guar : Nat → σ → σ → Prop) (pre : Nat → σ → Prop)
    (post : Nat → Except ε α → σ → Prop) : Prop where
  refl : ∀ state, R state state
  trans : ∀ {a b c}, R a b → R b c → R a c
  rely_refl : ∀ task state, rely task state state
  rely_trans : ∀ {task a b c}, rely task a b → rely task b c → rely task a c
  guards : ∀ {task other a b}, task ≠ other → guar task a b → rely other a b
  keeps : ∀ {task a b}, inv a → guar task a b → inv b ∧ R a b
  released : ∀ {task other state}, task ≠ other → rely other state (release task state)
  keeps_released : ∀ task {state}, inv state →
    inv (release task state) ∧ R state (release task state) ∧ pre task (release task state)
  pre_later : ∀ {task a b}, rely task a b → pre task a → pre task b
  starts : ∀ {task call state}, inv state → pre task state →
    (program task call).Meets (rely task) (guar task) (post task) state

variable {program : Nat → κ → Process σ ε α} {release : Nat → σ → σ} {inv : σ → Prop}
  {R : σ → σ → Prop} {rely guar : Nat → σ → σ → Prop} {pre : Nat → σ → Prop}
  {post : Nat → Except ε α → σ → Prop}
variable {pool : Pool σ ε α}

/-- What holds of one number in a state. -/
def TaskMeets (rely guar : Nat → σ → σ → Prop) (pre : Nat → σ → Prop)
    (post : Nat → Except ε α → σ → Prop) (state : σ) (task : Nat) :
    Option (Process σ ε α) → Prop
  | none => pre task state
  | some p => p.Meets (rely task) (guar task) (post task) state

/-- Every number of the pool meets its judgement. -/
structure Sound (inv : σ → Prop) (rely guar : Nat → σ → σ → Prop) (pre : Nat → σ → Prop)
    (post : Nat → Except ε α → σ → Prop) (pool : Pool σ ε α) : Prop where
  inv : inv pool.state
  tasks : ∀ task, TaskMeets rely guar pre post pool.state task (pool.tasks task)

/-- The others go on meeting their judgements when one number moves within its guarantee. -/
theorem Discipline.moved (d : Discipline program release inv R rely guar pre post)
    (h : Sound inv rely guar pre post pool) {task : Nat} {state : σ}
    {entry : Option (Process σ ε α)} (hinv : inv state)
    (hrely : ∀ other, task ≠ other → rely other pool.state state)
    (hentry : TaskMeets rely guar pre post state task entry) :
    Sound inv rely guar pre post ⟨state, Function.update pool.tasks task entry⟩ := by
  refine ⟨hinv, fun other => ?_⟩
  by_cases hother : other = task
  · subst hother
    simpa using hentry
  · have hsame := h.tasks other
    have hmove := hrely other (Ne.symm hother)
    simp only [Function.update_of_ne hother]
    revert hsame
    cases pool.tasks other with
    | none => exact d.pre_later hmove
    | some p =>
        have htrans : ∀ {a b c}, rely other a b → rely other b c → rely other a c := d.rely_trans
        exact fun hmeets => Process.Meets.later @htrans hmeets hmove

theorem Discipline.step_sound (d : Discipline program release inv R rely guar pre post)
    (h : Sound inv rely guar pre post pool) (event : Event κ) :
    Sound inv rely guar pre post (pool.step program release event) ∧
      R pool.state (pool.step program release event).state := by
  cases event with
  | start task call =>
      have htask := h.tasks task
      simp only [step]
      cases hentry : pool.tasks task with
      | some p => exact ⟨h, d.refl _⟩
      | none =>
          rw [hentry] at htask
          exact ⟨d.moved h h.inv (fun other _ => d.rely_refl other _) (d.starts h.inv htask),
            d.refl _⟩
  | advance task =>
      have htask := h.tasks task
      simp only [step]
      split
      · rename_i ready effect next hentry
        rw [hentry] at htask
        split
        · rename_i hready
          obtain ⟨hguar, hnext⟩ := htask pool.state (d.rely_refl task _) hready
          obtain ⟨hinv, hrelated⟩ := d.keeps h.inv hguar
          exact ⟨d.moved h hinv (fun other hother => d.guards hother hguar) hnext, hrelated⟩
        · exact ⟨h, d.refl _⟩
      · exact ⟨h, d.refl _⟩
  | crash task =>
      simp only [step]
      split
      · obtain ⟨hinv, hrelated, hpre⟩ := d.keeps_released task h.inv
        exact ⟨d.moved h hinv (fun other hother => d.released hother) hpre, hrelated⟩
      · exact ⟨h, d.refl _⟩

/-- Every process of a run meets its judgement, and the run relates the states at its ends. -/
theorem Discipline.pool_meets (d : Discipline program release inv R rely guar pre post)
    (h : Sound inv rely guar pre post pool) (events : List (Event κ)) :
    Sound inv rely guar pre post (Execution.run (step program release) pool events) ∧
      R pool.state (Execution.run (step program release) pool events).state := by
  induction events generalizing pool with
  | nil => exact ⟨h, d.refl _⟩
  | cons event events ih =>
      obtain ⟨hsound, hfirst⟩ := d.step_sound h event
      obtain ⟨hlast, hrest⟩ := ih hsound
      exact ⟨hlast, d.trans hfirst hrest⟩

/-- A pool at rest is sound as soon as no number stands in the way. -/
theorem sound_idle {state : σ} (hinv : inv state) (hpre : ∀ task, pre task state) :
    Sound inv rely guar pre post (idle state : Pool σ ε α) := ⟨hinv, hpre⟩

theorem Sound.outcome (h : Sound inv rely guar pre post pool)
    (hrefl : ∀ task state, rely task state state) {task : Nat} {p : Process σ ε α}
    (htask : pool.tasks task = some p) {result : Except ε α} (hresult : p.outcome = some result) :
    post task result pool.state := by
  have hmeets := h.tasks task
  rw [htask] at hmeets
  cases p with
  | done value =>
      cases hresult
      exact hmeets pool.state (hrefl task _)
  | failed failure =>
      cases hresult
      exact hmeets pool.state (hrefl task _)
  | act ready effect next => cases hresult

end Pool

end Execution
