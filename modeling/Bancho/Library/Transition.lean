/-
  Bancho.Library.Transition
  ─────────────────────────
  Guarded transition systems and the induction rules for what holds along a run.

  `step s a` is `none` when the action `a` cannot happen in the state `s`; a run
  is the list of its actions, so a property may speak about the history
  (`runFrom_induction`) or about the state alone (`invariant`).  Two systems may
  run at once, one telling the other (`coupled`), one may represent the states of
  another (`runFrom_map`), and one may carry out the steps of another by steps of
  its own (`run_simulates`).
-/
import Mathlib.Algebra.Ring.Nat
import Mathlib.Data.List.Basic
import Mathlib.Data.List.Induction

namespace Transition

/-- A transition system: an initial state and a guarded step. -/
structure System (σ ι : Type) where
  init : σ
  step : σ → ι → Option σ

namespace System

variable {σ ι : Type} (sys : System σ ι)

/-- Perform the actions `as` from `s`; `none` if one of them cannot happen. -/
def runFrom (s : σ) (as : List ι) : Option σ := as.foldlM sys.step s

/-- Perform the actions `as` from the initial state. -/
def run (as : List ι) : Option σ := sys.runFrom sys.init as

variable {sys}

theorem runFrom_cons (s : σ) (a : ι) (as : List ι) :
    sys.runFrom s (a :: as) = (sys.step s a).bind (fun s' => sys.runFrom s' as) := rfl

theorem runFrom_append (s : σ) (as bs : List ι) :
    sys.runFrom s (as ++ bs) = (sys.runFrom s as).bind (fun s' => sys.runFrom s' bs) := by
  induction as generalizing s with
  | nil => rfl
  | cons a as ih =>
      rw [List.cons_append, runFrom_cons, runFrom_cons, Option.bind_assoc]
      congr 1
      funext s'
      exact ih s'

/-- The last action of a run. -/
theorem runFrom_concat {s s' : σ} {as : List ι} {a : ι} :
    sys.runFrom s (as ++ [a]) = some s' ↔ ∃ t, sys.runFrom s as = some t ∧ sys.step t a = some s' := by
  rw [runFrom_append, Option.bind_eq_some_iff]
  constructor
  · rintro ⟨t, ht, hs⟩
    rw [runFrom_cons, Option.bind_eq_some_iff] at hs
    obtain ⟨u, hu, hn⟩ := hs
    exact ⟨t, ht, by rw [hu]; exact hn⟩
  · rintro ⟨t, ht, hs⟩
    exact ⟨t, ht, by rw [runFrom_cons, hs]; rfl⟩

/-- **History rule**: what holds of the empty history and the start, and passes
over each action, holds after every run from there. -/
theorem runFrom_induction {P : List ι → σ → Prop} {s₀ : σ} (hinit : P [] s₀)
    (hstep : ∀ as s a s', P as s → sys.step s a = some s' → P (as ++ [a]) s') :
    ∀ {as : List ι} {s : σ}, sys.runFrom s₀ as = some s → P as s := by
  intro as
  induction as using List.reverseRecOn with
  | nil =>
      intro s h
      obtain rfl : s₀ = s := Option.some.inj h
      exact hinit
  | append_singleton as a ih =>
      intro s h
      obtain ⟨t, ht, hs⟩ := runFrom_concat.mp h
      exact hstep as t a s (ih ht) hs

/-- **Invariant rule**: a property of states that each action keeps is kept by
every run. -/
theorem runFrom_invariant {P : σ → Prop} (hstep : ∀ s a s', P s → sys.step s a = some s' → P s')
    {s₀ s : σ} {as : List ι} (h₀ : P s₀) (h : sys.runFrom s₀ as = some s) : P s :=
  runFrom_induction (P := fun _ => P) h₀ (fun _ s a s' => hstep s a s') h

/-- **Invariant rule**, from the initial state. -/
theorem invariant {P : σ → Prop} (hinit : P sys.init)
    (hstep : ∀ s a s', P s → sys.step s a = some s' → P s')
    {s : σ} {as : List ι} (h : sys.run as = some s) : P s :=
  runFrom_invariant hstep hinit h

/-! ## Runs whose steps meet a condition. -/

variable (sys) in
/-- Every step of the run from `s` meets `P`, a condition on the state before it
and its action. -/
def Along (P : σ → ι → Prop) : σ → List ι → Prop
  | _, [] => True
  | s, a :: as => P s a ∧ ∀ s', sys.step s a = some s' → Along P s' as

/-- A condition that always holds is met by every run. -/
theorem along_of_forall {P : σ → ι → Prop} (h : ∀ s a, P s a) (as : List ι) :
    ∀ s, sys.Along P s as := by
  induction as with
  | nil =>
      intro s
      exact trivial
  | cons a as ih =>
      intro s
      exact ⟨h s a, fun s' _ => ih s'⟩

theorem along_append {P : σ → ι → Prop} (as bs : List ι) :
    ∀ s, sys.Along P s (as ++ bs)
      ↔ sys.Along P s as ∧ ∀ s', sys.runFrom s as = some s' → sys.Along P s' bs := by
  induction as with
  | nil =>
      intro s
      constructor
      · intro h
        refine ⟨trivial, fun s' hs => ?_⟩
        obtain rfl : s = s' := Option.some.inj hs
        exact h
      · intro h
        exact h.2 s rfl
  | cons a as ih =>
      intro s
      constructor
      · rintro ⟨hP, hrest⟩
        refine ⟨⟨hP, fun s' hs => ((ih s').mp (hrest s' hs)).1⟩, fun s'' hrun => ?_⟩
        rw [runFrom_cons, Option.bind_eq_some_iff] at hrun
        obtain ⟨s', hs, hrun⟩ := hrun
        exact ((ih s').mp (hrest s' hs)).2 s'' hrun
      · rintro ⟨⟨hP, hfirst⟩, hrest⟩
        refine ⟨hP, fun s' hs => (ih s').mpr ⟨hfirst s' hs, fun s'' hrun => hrest s'' ?_⟩⟩
        rw [runFrom_cons, hs]
        exact hrun

/-- **History rule** for the runs whose steps meet `P`. -/
theorem along_induction {P : σ → ι → Prop} {Q : List ι → σ → Prop} {s₀ : σ} (hinit : Q [] s₀)
    (hstep : ∀ as s a s', Q as s → sys.step s a = some s' → P s a → Q (as ++ [a]) s')
    {as : List ι} {s : σ} (halong : sys.Along P s₀ as) (h : sys.runFrom s₀ as = some s) :
    Q as s := by
  -- the history before the run has to vary, as the condition is checked from the front
  suffices hfrom : ∀ pre t, Q pre t → sys.Along P t as → sys.runFrom t as = some s →
      Q (pre ++ as) s from hfrom [] s₀ hinit halong h
  clear halong h
  induction as with
  | nil =>
      intro pre t hQ _ hrun
      obtain rfl : t = s := Option.some.inj hrun
      rw [List.append_nil]
      exact hQ
  | cons a as ih =>
      intro pre t hQ hmeets hrun
      obtain ⟨hP, hrest⟩ := hmeets
      rw [runFrom_cons, Option.bind_eq_some_iff] at hrun
      obtain ⟨u, hu, hrun⟩ := hrun
      have hnext := ih (pre ++ [a]) u (hstep pre t a u hQ hu hP) (hrest u hu) hrun
      rwa [List.append_assoc] at hnext

/-! ## Two systems, of which one is told by the other. -/

section Coupled

variable {τ κ μ : Type} (A : System σ ι) (B : System τ μ) (emit : σ → List μ) (own : κ → μ)

/-- Both systems at once: an action is one of `A`, after which `B` performs what `A`
emits in the state it has come to, or it is one of the actions that `B` has of its
own. -/
def coupled : System (σ × τ) (ι ⊕ κ) where
  init := (A.init, B.init)
  step s a := match a with
    | .inl a => (A.step s.1 a).bind fun s' => (B.runFrom s.2 (emit s')).map fun t' => (s', t')
    | .inr b => (B.step s.2 (own b)).map fun t' => (s.1, t')

/-- All that `B` performs: what `A` emits, and its own actions. -/
def heard : σ → List (ι ⊕ κ) → List μ
  | _, [] => []
  | s, .inl a :: as => (A.step s a).elim [] fun s' => emit s' ++ heard s' as
  | s, .inr b :: as => own b :: heard s as

/-- The actions of the first system. -/
def lefts (as : List (ι ⊕ κ)) : List ι := as.filterMap Sum.getLeft?

variable {A B emit own}

/-- **Coupling rule**: both at once is a run of `A` on its actions, and one of `B` on
all that it hears. -/
theorem coupled_runFrom (s : σ) (t : τ) (as : List (ι ⊕ κ)) :
    (coupled A B emit own).runFrom (s, t) as
      = (A.runFrom s (lefts as)).bind fun s' =>
          (B.runFrom t (heard A emit own s as)).map fun t' => (s', t') := by
  induction as generalizing s t with
  | nil => rfl
  | cons a as ih =>
      rw [runFrom_cons]
      cases a with
      | inl a =>
          show ((A.step s a).bind fun s' => (B.runFrom t (emit s')).map fun t' => (s', t')).bind _
            = (A.runFrom s (a :: lefts as)).bind fun s' =>
                (B.runFrom t ((A.step s a).elim [] fun s' =>
                  emit s' ++ heard A emit own s' as)).map _
          rw [runFrom_cons]
          cases A.step s a with
          | none => rfl
          | some s' =>
              show ((B.runFrom t (emit s')).map fun t' => (s', t')).bind _
                = (A.runFrom s' (lefts as)).bind fun s'' =>
                    (B.runFrom t (emit s' ++ heard A emit own s' as)).map _
              rw [runFrom_append]
              cases B.runFrom t (emit s') with
              | none =>
                  -- `B` cannot perform it, however far `A` would have got
                  show none = _
                  cases A.runFrom s' (lefts as) <;> rfl
              | some t' => exact ih s' t'
      | inr b =>
          show ((B.step t (own b)).map fun t' => (s, t')).bind _
            = (A.runFrom s (lefts as)).bind fun s' =>
                (B.runFrom t (own b :: heard A emit own s as)).map fun t' => (s', t')
          rw [runFrom_cons]
          cases B.step t (own b) with
          | none =>
              show none = _
              cases A.runFrom s (lefts as) <;> rfl
          | some t' => exact ih s t'

end Coupled

/-- **Representation rule**: if `f` turns each step of one system into the step of
another, it turns its runs into runs. -/
theorem runFrom_map {τ : Type} {other : System τ ι} {f : σ → τ}
    (hf : ∀ s a, other.step (f s) a = (sys.step s a).map f) (s : σ) (as : List ι) :
    other.runFrom (f s) as = (sys.runFrom s as).map f := by
  induction as generalizing s with
  | nil => rfl
  | cons a as ih =>
      rw [runFrom_cons, runFrom_cons, hf]
      cases sys.step s a with
      | none => rfl
      | some s' => exact ih s'

/-- **Representation rule** with idle actions: `g` says which action of the other
system an action is, if it is one. -/
theorem runFrom_filterMap {τ κ : Type} {other : System τ κ} {f : τ → σ} {g : ι → Option κ}
    (hf : ∀ t a, sys.step (f t) a
      = (g a).elim (some (f t)) fun b => (other.step t b).map f) (t : τ) (as : List ι) :
    sys.runFrom (f t) as = (other.runFrom t (as.filterMap g)).map f := by
  induction as generalizing t with
  | nil => rfl
  | cons a as ih =>
      rw [runFrom_cons, hf]
      cases hg : g a with
      | none =>
          rw [List.filterMap_cons_none hg]
          exact ih t
      | some b =>
          rw [List.filterMap_cons_some hg, runFrom_cons]
          show ((other.step t b).map f).bind _ = _
          cases other.step t b with
          | none => rfl
          | some t' => exact ih t'

/-! ## A system that carries out another. -/

/-- **Simulation rule**: if each step of one system is matched by some steps of
another, none included, then each run is matched by a run; and if a step that
meets `P` is matched by steps that meet `Q`, so are runs.  The relation sees both
histories. -/
theorem run_simulates {τ κ : Type} {other : System τ κ} {R : List ι → σ → List κ → τ → Prop}
    {P : σ → ι → Prop} {Q : τ → κ → Prop} (hinit : R [] sys.init [] other.init)
    (hstep : ∀ as s bs t a s', R as s bs t → other.run bs = some t → sys.step s a = some s' →
      ∃ ds t', other.runFrom t ds = some t' ∧ R (as ++ [a]) s' (bs ++ ds) t'
        ∧ (P s a → other.Along Q t ds))
    {as : List ι} {s : σ} (h : sys.run as = some s) :
    ∃ bs t, other.run bs = some t ∧ R as s bs t
      ∧ (sys.Along P sys.init as → other.Along Q other.init bs) := by
  have hall : sys.run as = some s ∧ ∃ bs t, other.run bs = some t ∧ R as s bs t
      ∧ (sys.Along P sys.init as → other.Along Q other.init bs) := by
    refine runFrom_induction (P := fun as s => sys.run as = some s ∧ ∃ bs t,
        other.run bs = some t ∧ R as s bs t
          ∧ (sys.Along P sys.init as → other.Along Q other.init bs))
      ⟨rfl, [], other.init, rfl, hinit, fun _ => trivial⟩ ?_ h
    intro as s a s' hi hs
    obtain ⟨hreached, bs, t, hrun, hR, hmeets⟩ := hi
    obtain ⟨ds, t', hmatch, hR', hmeet⟩ := hstep as s bs t a s' hR hrun hs
    have hrun' : other.runFrom other.init bs = some t := hrun
    refine ⟨runFrom_concat.mpr ⟨s, hreached, hs⟩, bs ++ ds, t', ?_, hR', ?_⟩
    · show other.runFrom other.init (bs ++ ds) = some t'
      rw [runFrom_append, hrun']
      exact hmatch
    · intro halong
      obtain ⟨hbefore, hlast⟩ := (along_append as [a] sys.init).mp halong
      refine (along_append bs ds other.init).mpr ⟨hmeets hbefore, ?_⟩
      intro u hu
      obtain rfl : t = u := Option.some.inj (hrun'.symm.trans hu)
      exact hmeet (hlast s hreached).1
  exact hall.2

/-- **Counting rule**: where no action of a kind adds to the measure `m`, and those
that `p` holds of use up some of it, a run of such actions has no more of these than
what it used. -/
theorem runFrom_countP {I : σ → Prop} {P : ι → Prop} {p : ι → Bool} {m : σ → Nat}
    (hstep : ∀ s a s', I s → P a → sys.step s a = some s' →
      I s' ∧ m s' + (if p a = true then 1 else 0) ≤ m s) :
    ∀ {as : List ι} {s s' : σ}, I s → (∀ a ∈ as, P a) → sys.runFrom s as = some s' →
      I s' ∧ m s' + as.countP p ≤ m s := by
  intro as
  induction as with
  | nil =>
      intro s s' hI _ h
      obtain rfl : s = s' := Option.some.inj h
      exact ⟨hI, Nat.le_refl _⟩
  | cons a as ih =>
      intro s s' hI hP h
      rw [runFrom_cons, Option.bind_eq_some_iff] at h
      obtain ⟨t, hs, hrun⟩ := h
      obtain ⟨hIt, hused⟩ := hstep s a t hI (hP a List.mem_cons_self) hs
      obtain ⟨hI', hle⟩ := ih hIt (fun b hb => hP b (List.mem_cons_of_mem a hb)) hrun
      refine ⟨hI', ?_⟩
      rw [List.countP_cons]
      omega

/-- **Measure rule**: where each action of a kind uses up some of the measure `m`,
a run of such actions is no longer than what it used. -/
theorem runFrom_measure {I : σ → Prop} {P : ι → Prop} {m : σ → Nat}
    (hstep : ∀ s a s', I s → P a → sys.step s a = some s' → I s' ∧ m s' < m s)
    {as : List ι} {s s' : σ} (hI : I s) (hP : ∀ a ∈ as, P a) (h : sys.runFrom s as = some s') :
    I s' ∧ m s' + as.length ≤ m s := by
  have hcount := runFrom_countP (P := P) (p := fun _ => true) (m := m)
    (fun s a s' hI ha hs => hstep s a s' hI ha hs) hI hP h
  rwa [List.countP_true] at hcount

/-- **Rest rule**: and where some such action is possible until `Q` holds, a run of
them leads there. -/
theorem exists_rest {I : σ → Prop} {P : ι → Prop} {m : σ → Nat} {Q : σ → Prop}
    (hstep : ∀ s a s', I s → P a → sys.step s a = some s' → I s' ∧ m s' < m s)
    (hgo : ∀ s, I s → ¬ Q s → ∃ a s', P a ∧ sys.step s a = some s') {s : σ} (hI : I s) :
    ∃ as s', (∀ a ∈ as, P a) ∧ sys.runFrom s as = some s' ∧ I s' ∧ Q s' := by
  -- the measure of the state bounds how far it still is
  induction hm : m s using Nat.strongRecOn generalizing s with
  | ind n ih =>
      by_cases hrest : Q s
      · exact ⟨[], s, fun a ha => (nomatch ha), rfl, hI, hrest⟩
      · obtain ⟨a, t, ha, hs⟩ := hgo s hI hrest
        obtain ⟨hIt, hlt⟩ := hstep s a t hI ha hs
        obtain ⟨as, s', has, hrun, hrest'⟩ := ih (m t) (hm ▸ hlt) hIt rfl
        refine ⟨a :: as, s', List.forall_mem_cons.mpr ⟨ha, has⟩, ?_, hrest'⟩
        rw [runFrom_cons, hs]
        exact hrun

end System

end Transition
