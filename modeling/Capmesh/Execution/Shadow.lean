import Mathlib.Logic.Function.Basic

/-!
# Shadow copies of a store

Writes go to a live store, a shadow is built from it, and a promotion puts a shadow in its
place. A promotion loses nothing when the shadow has every effect of the writes before it.
`Covers` is the invariant that says so of each shadow no write came after: a write leaves no
such shadow, and whoever builds one has to show that it has the effects so far.
-/

namespace Execution

/-- A live store and its shadows. The last two fields are not part of the system: the shadows no
write came after, and the effects of the writes that no later write undid. -/
structure Shadowed (κ σ φ : Type) where
  live : σ
  shadows : κ → Option σ
  current : κ → Prop
  effects : φ → Prop

namespace Shadowed

variable {κ σ φ : Type} (Has : σ → φ → Prop)

/-- A store without shadows on which nothing was written yet. -/
def start (live : σ) : Shadowed κ σ φ where
  live
  shadows _ := none
  current _ := False
  effects _ := False

/-- A write: its effects are the facts it brought about, beside the earlier ones it left. -/
def write (state : Shadowed κ σ φ) (after : σ) : Shadowed κ σ φ where
  live := after
  shadows := state.shadows
  current _ := False
  effects fact := Has after fact ∧ (state.effects fact ∨ ¬ Has state.live fact)

/-- Every shadow no write came after has the effects of the writes. -/
def Covers (state : Shadowed κ σ φ) : Prop :=
  ∀ path shadow, state.current path → state.shadows path = some shadow →
    ∀ fact, state.effects fact → Has shadow fact

variable {Has}

theorem covers_start (live : σ) : (start live : Shadowed κ σ φ).Covers Has :=
  fun _ _ hcurrent => hcurrent.elim

theorem covers_write (state : Shadowed κ σ φ) (after : σ) : (state.write Has after).Covers Has :=
  fun _ _ hcurrent => hcurrent.elim

variable [DecidableEq κ]

/-- A shadow is built, or taken away. The builder may change the live store. -/
def build (state : Shadowed κ σ φ) (path : κ) (live : σ) (shadow : Option σ) (ready : Prop) :
    Shadowed κ σ φ where
  live
  shadows := Function.update state.shadows path shadow
  current := Function.update state.current path ready
  effects := state.effects

/-- A shadow takes the place of the live store. -/
def promote (state : Shadowed κ σ φ) (path : κ) (shadow : σ) : Shadowed κ σ φ where
  live := shadow
  shadows := Function.update state.shadows path none
  current := state.current
  effects := state.effects

theorem Covers.build {state : Shadowed κ σ φ} (h : state.Covers Has) {path : κ} {live : σ}
    {built : Option σ} {ready : Prop}
    (hbuilt : ready → ∀ shadow, built = some shadow → ∀ fact, state.effects fact → Has shadow fact) :
    (state.build path live built ready).Covers Has := by
  intro other shadow hcurrent hshadow fact hfact
  by_cases hsame : other = path
  · subst hsame
    simp only [Shadowed.build, Function.update_self] at hcurrent hshadow
    exact hbuilt hcurrent shadow hshadow fact hfact
  · simp only [Shadowed.build, Function.update_of_ne hsame] at hcurrent hshadow
    exact h other shadow hcurrent hshadow fact hfact

theorem Covers.promote {state : Shadowed κ σ φ} (h : state.Covers Has) (path : κ) (shadow : σ) :
    (state.promote path shadow).Covers Has := by
  intro other found hcurrent hfound fact hfact
  by_cases hsame : other = path
  · subst hsame
    simp [Shadowed.promote] at hfound
  · simp only [Shadowed.promote, Function.update_of_ne hsame] at hfound
    exact h other found hcurrent hfound fact hfact

end Shadowed

end Execution
