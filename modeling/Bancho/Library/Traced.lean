/-
  Bancho.Library.Traced
  ─────────────────────
  Computations that record what they do: a value, and the effects it took to get
  it, in order.  Only `record` adds an effect, so a statement about all effects
  of a program is one about all its primitive operations.

  `Yields Safe x a` is the specification used for them: the value is `a`, and all
  that was done on the way is `Safe`.  It has one rule for each way a program is
  built (`pure`, `record`, `bind`), so a program is verified along its text.
-/
import Mathlib.Control.Monad.Writer

/-- A value with the effects `ε` it took. -/
abbrev Traced (ε α : Type) : Type := Writer (List ε) α

namespace Traced

variable {ε α β : Type}

/-- Do `e`, and get `a`. -/
def record (e : ε) (a : α) : Traced ε α := WriterT.mk (a, [e])

def value (x : Traced ε α) : α := (WriterT.run x).1

def effects (x : Traced ε α) : List ε := (WriterT.run x).2

@[simp] theorem effects_pure (a : α) : effects (pure a : Traced ε α) = [] := rfl

@[simp] theorem effects_record (e : ε) (a : α) : effects (record e a) = [e] := rfl

@[simp] theorem effects_bind (x : Traced ε α) (f : α → Traced ε β) :
    effects (x >>= f) = effects x ++ effects (f (value x)) := rfl

/-- The value is `a`, and all effects are `Safe`. -/
structure Yields (Safe : ε → Prop) (x : Traced ε α) (a : α) : Prop where
  value_eq : value x = a
  safe : ∀ e ∈ effects x, Safe e

variable {Safe : ε → Prop}

theorem Yields.pure (a : α) : Yields Safe (pure a) a := by
  refine ⟨rfl, ?_⟩
  intro e he
  rw [effects_pure] at he
  exact absurd he List.not_mem_nil

theorem Yields.record {e : ε} (h : Safe e) (a : α) : Yields Safe (record e a) a := by
  refine ⟨rfl, ?_⟩
  intro e' he
  rw [effects_record, List.mem_singleton] at he
  rw [he]
  exact h

/-- **Sequencing**: what follows is verified for the value that is known. -/
theorem Yields.bind {x : Traced ε α} {f : α → Traced ε β} {a : α} {b : β}
    (hx : Yields Safe x a) (hf : Yields Safe (f a) b) : Yields Safe (x >>= f) b := by
  obtain ⟨rfl, hsafe⟩ := hx
  refine ⟨hf.value_eq, ?_⟩
  intro e he
  rw [effects_bind] at he
  rcases List.mem_append.mp he with hx | hf'
  · exact hsafe e hx
  · exact hf.safe e hf'

end Traced
