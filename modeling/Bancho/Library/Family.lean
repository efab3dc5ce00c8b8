/-
  Bancho.Library.Family
  ─────────────────────
  Any number of copies of one transition system, started one after another while
  those before them run (`family`).

  A run of the family is known from the runs of its members: it is one exactly
  when each action comes after the start of its member and each member can perform
  its own actions (`members_run`, `run_of_members`).  So a family of another system
  does what its members do (`family_filterMap`), and what each action takes from a
  measure of its member it takes from the sum over all of them (`family_measure`).
-/
import Mathlib.Algebra.BigOperators.Group.List.Basic
import Bancho.Library.Transition

namespace Transition.System

/-- Start one more member, or let member `i` act. -/
inductive FamilyAction (ι : Type) where
  | spawn
  | act (i : Nat) (a : ι)
  deriving Repr, DecidableEq

namespace FamilyAction

variable {ι : Type}

def isSpawn : FamilyAction ι → Bool
  | .spawn => true
  | .act _ _ => false

/-- The action, if it is of member `i`. -/
def ofMember (i : Nat) : FamilyAction ι → Option ι
  | .spawn => none
  | .act j a => if j = i then some a else none

end FamilyAction

section Family

variable {σ ι : Type} (sys : System σ ι)

/-- The members started so far, each in its state. -/
def family : System (List σ) (FamilyAction ι) where
  init := []
  step ss
    | .spawn => some (ss ++ [sys.init])
    | .act i a => ss[i]?.bind fun s => (sys.step s a).map fun s' => ss.set i s'

/-- How many members some actions start. -/
def spawned (as : List (FamilyAction ι)) : Nat := as.countP FamilyAction.isSpawn

/-- The actions of member `i`. -/
def own (i : Nat) (as : List (FamilyAction ι)) : List ι :=
  as.filterMap (FamilyAction.ofMember i)

/-- Each action is of a member that was started before it. -/
def Started (as : List (FamilyAction ι)) : Prop :=
  ∀ pre i a post, as = pre ++ .act i a :: post → i < spawned pre

/-! ## §1. One more action. -/

variable {sys}

theorem spawned_append (as bs : List (FamilyAction ι)) :
    spawned (as ++ bs) = spawned as + spawned bs := List.countP_append

theorem own_append (i : Nat) (as bs : List (FamilyAction ι)) :
    own i (as ++ bs) = own i as ++ own i bs := List.filterMap_append

theorem own_act_self (i : Nat) (a : ι) : own i [.act i a] = [a] := by
  simp [own, FamilyAction.ofMember]

theorem own_act_ne {i j : Nat} (h : j ≠ i) (a : ι) : own i [.act j a] = [] := by
  simp [own, FamilyAction.ofMember, h]

theorem started_nil : Started ([] : List (FamilyAction ι)) := by
  intro pre i a post h
  exact absurd h.symm (List.append_ne_nil_of_right_ne_nil _ (List.cons_ne_nil _ _))

/-- An action at the end has to have its member started. -/
theorem started_concat {as : List (FamilyAction ι)} {a : FamilyAction ι} :
    Started (as ++ [a]) ↔ Started as ∧ ∀ i b, a = .act i b → i < spawned as := by
  constructor
  · intro h
    constructor
    · intro pre i b post heq
      refine h pre i b (post ++ [a]) ?_
      rw [heq, List.append_assoc]
      rfl
    · intro i b ha
      exact h as i b [] (ha ▸ rfl)
  · rintro ⟨hbefore, hlast⟩ pre i b post heq
    induction post using List.reverseRecOn with
    | nil =>
        -- the action is the last one
        obtain ⟨rfl, hsame⟩ := List.append_inj' heq rfl
        exact hlast i b (List.head_eq_of_cons_eq hsame)
    | append_singleton post c _ =>
        rw [← List.cons_append, ← List.append_assoc] at heq
        obtain ⟨hinit, -⟩ := List.append_inj' heq rfl
        exact hbefore pre i b post hinit

/-- A member that is not started does nothing. -/
theorem own_eq_nil {as : List (FamilyAction ι)} (h : Started as) {i : Nat}
    (hi : spawned as ≤ i) : own i as = [] := by
  induction as using List.reverseRecOn with
  | nil => rfl
  | append_singleton as a ih =>
      obtain ⟨hbefore, hlast⟩ := started_concat.mp h
      rw [spawned_append] at hi
      rw [own_append, ih hbefore (Nat.le_trans (Nat.le_add_right _ _) hi), List.nil_append]
      cases a with
      | spawn => rfl
      | act j b =>
          have hlt := hlast j b rfl
          exact own_act_ne (by omega) b

/-! ## §2. The runs of a family. -/

/-- `ss` is what the members become by their own actions. -/
structure Members (sys : System σ ι) (as : List (FamilyAction ι)) (ss : List σ) : Prop where
  started : Started as
  count : ss.length = spawned as
  run : ∀ i s, ss[i]? = some s → sys.run (own i as) = some s

theorem members_init : Members sys [] [] :=
  ⟨started_nil, rfl, fun i s h => by rw [List.getElem?_nil] at h; exact nomatch h⟩

/-- **Each step of the family is a step of one member**, or its start. -/
theorem members_step {as : List (FamilyAction ι)} {ss ss' : List σ} {a : FamilyAction ι}
    (hm : Members sys as ss) (h : (family sys).step ss a = some ss') :
    Members sys (as ++ [a]) ss' := by
  cases a with
  | spawn =>
      obtain rfl : ss ++ [sys.init] = ss' := Option.some.inj h
      refine ⟨started_concat.mpr ⟨hm.started, fun i b hb => (nomatch hb)⟩, ?_, ?_⟩
      · rw [List.length_append, hm.count, spawned_append]
        rfl
      · intro i s hi
        rw [own_append]
        show sys.run (own i as ++ []) = _
        rw [List.append_nil]
        rcases Nat.lt_trichotomy i ss.length with hlt | heq | hgt
        · rw [List.getElem?_append_left hlt] at hi
          exact hm.run i s hi
        · -- the new member has done nothing
          subst heq
          rw [List.getElem?_concat_length] at hi
          obtain rfl := Option.some.inj hi
          rw [own_eq_nil hm.started (Nat.le_of_eq hm.count.symm)]
          rfl
        · rw [List.getElem?_eq_none (by rw [List.length_append, List.length_singleton]; omega)] at hi
          exact nomatch hi
  | act j b =>
      obtain ⟨s₀, hs₀, h⟩ := Option.bind_eq_some_iff.mp h
      obtain ⟨s₁, hs₁, rfl⟩ := Option.map_eq_some_iff.mp h
      have hj : j < ss.length := (List.getElem?_eq_some_iff.mp hs₀).1
      refine ⟨started_concat.mpr ⟨hm.started, ?_⟩, ?_, ?_⟩
      · intro i b' hb
        obtain ⟨rfl, -⟩ := FamilyAction.act.inj hb
        rw [← hm.count]
        exact hj
      · rw [List.length_set, hm.count, spawned_append]
        rfl
      · intro i s hi
        rw [own_append]
        by_cases hij : j = i
        · subst hij
          rw [List.getElem?_set_self hj] at hi
          obtain rfl := Option.some.inj hi
          rw [own_act_self]
          exact runFrom_concat.mpr ⟨s₀, hm.run j s₀ hs₀, hs₁⟩
        · rw [List.getElem?_set_ne hij] at hi
          rw [own_act_ne hij, List.append_nil]
          exact hm.run i s hi

theorem members_run {as : List (FamilyAction ι)} {ss : List σ}
    (h : (family sys).run as = some ss) : Members sys as ss :=
  runFrom_induction (P := Members sys) members_init (fun _ _ _ _ hm hs => members_step hm hs) h

/-- **And each way to run the members is a run of the family.** -/
theorem run_of_members {as : List (FamilyAction ι)} :
    ∀ {ss : List σ}, Members sys as ss → (family sys).run as = some ss := by
  induction as using List.reverseRecOn with
  | nil =>
      intro ss hm
      obtain rfl := List.length_eq_zero_iff.mp hm.count
      rfl
  | append_singleton as a ih =>
      intro ss hm
      obtain ⟨hbefore, hlast⟩ := started_concat.mp hm.started
      have hcount := hm.count
      rw [spawned_append] at hcount
      refine runFrom_concat.mpr ?_
      cases a with
      | spawn =>
          -- the last member is the new one
          have hlen : ss.length = spawned as + 1 := hcount
          have hne : ss ≠ [] := by
            intro hnil
            rw [hnil] at hlen
            exact nomatch hlen
          have hown : ∀ i, own i (as ++ [.spawn]) = own i as := by
            intro i
            rw [own_append]
            exact List.append_nil _
          have hsplit := List.dropLast_append_getLast hne
          refine ⟨ss.dropLast, ih ⟨hbefore, ?_, ?_⟩, ?_⟩
          · rw [List.length_dropLast, hlen, Nat.add_sub_cancel]
          · intro i s hi
            rw [← hown]
            refine hm.run i s ?_
            have hi' : i < ss.dropLast.length := (List.getElem?_eq_some_iff.mp hi).1
            rw [← hsplit, List.getElem?_append_left hi']
            exact hi
          · have hinit : sys.run (own (spawned as) (as ++ [.spawn])) = some (ss.getLast hne) := by
              refine hm.run _ _ ?_
              have hpos : spawned as = ss.dropLast.length := by
                rw [List.length_dropLast, hlen, Nat.add_sub_cancel]
              conv_lhs => rw [← hsplit]
              rw [hpos, List.getElem?_concat_length]
            rw [hown, own_eq_nil hbefore (Nat.le_refl _)] at hinit
            have hinit : sys.init = ss.getLast hne := Option.some.inj hinit
            show some (ss.dropLast ++ [sys.init]) = some ss
            rw [hinit, hsplit]
      | act j b =>
          have hlen : ss.length = spawned as := hcount
          have hj : j < ss.length := hlen ▸ hlast j b rfl
          have hat : ss[j]? = some ss[j] := List.getElem?_eq_getElem hj
          have hrun := hm.run j ss[j] hat
          rw [own_append, own_act_self] at hrun
          obtain ⟨s₀, hs₀, hs₁⟩ := runFrom_concat.mp hrun
          -- the family one action earlier has the member in `s₀`
          refine ⟨ss.set j s₀, ih ⟨hbefore, ?_, ?_⟩, ?_⟩
          · rw [List.length_set, hlen]
          · intro i s hi
            by_cases hij : j = i
            · subst hij
              rw [List.getElem?_set_self hj] at hi
              obtain rfl := Option.some.inj hi
              exact hs₀
            · rw [List.getElem?_set_ne hij] at hi
              have hother := hm.run i s hi
              rw [own_append, own_act_ne hij, List.append_nil] at hother
              exact hother
          · show ((ss.set j s₀)[j]?).bind _ = some ss
            rw [List.getElem?_set_self hj]
            show (sys.step s₀ b).map (fun s' => (ss.set j s₀).set j s') = some ss
            rw [hs₁, Option.map_some, List.set_set, List.set_getElem_self]

/-! ## §3. Other members. -/

/-- The action of a member as the action of another, if it is one. -/
def FamilyAction.filterMap {κ : Type} (g : ι → Option κ) :
    FamilyAction ι → Option (FamilyAction κ)
  | .spawn => some .spawn
  | .act i a => (g a).map (.act i)

theorem spawned_filterMap {κ : Type} (g : ι → Option κ) (as : List (FamilyAction ι)) :
    spawned (as.filterMap (FamilyAction.filterMap g)) = spawned as := by
  unfold spawned
  rw [List.countP_filterMap]
  refine List.countP_congr fun a _ => ?_
  cases a with
  | spawn => exact Iff.rfl
  | act i a => cases hg : g a <;> simp [FamilyAction.filterMap, FamilyAction.isSpawn, hg]

theorem own_filterMap {κ : Type} (g : ι → Option κ) (i : Nat) (as : List (FamilyAction ι)) :
    own i (as.filterMap (FamilyAction.filterMap g)) = (own i as).filterMap g := by
  unfold own
  rw [List.filterMap_filterMap, List.filterMap_filterMap]
  refine List.filterMap_congr fun a _ => ?_
  cases a with
  | spawn => rfl
  | act j a =>
      by_cases hij : j = i
      · cases hg : g a <;> simp [FamilyAction.filterMap, FamilyAction.ofMember, hij, hg]
      · cases hg : g a <;> simp [FamilyAction.filterMap, FamilyAction.ofMember, hij, hg]

theorem started_filterMap {κ : Type} (g : ι → Option κ) {as : List (FamilyAction ι)}
    (h : Started as) : Started (as.filterMap (FamilyAction.filterMap g)) := by
  induction as using List.reverseRecOn with
  | nil => exact started_nil
  | append_singleton as a ih =>
      obtain ⟨hbefore, hlast⟩ := started_concat.mp h
      rw [List.filterMap_append]
      cases ha : FamilyAction.filterMap g a with
      | none =>
          rw [List.filterMap_cons_none ha, List.filterMap_nil, List.append_nil]
          exact ih hbefore
      | some b =>
          rw [List.filterMap_cons_some ha, List.filterMap_nil, started_concat, spawned_filterMap]
          refine ⟨ih hbefore, ?_⟩
          rintro i b' rfl
          cases a with
          | spawn => exact nomatch ha
          | act j a =>
              obtain ⟨b'', -, hsame⟩ := Option.map_eq_some_iff.mp ha
              obtain ⟨rfl, -⟩ := FamilyAction.act.inj hsame
              exact hlast j a rfl

/-- **A family of another system**: where each run of a member is a run of it, but
for the actions that are none, so is each run of the family. -/
theorem family_filterMap {τ κ : Type} {other : System τ κ} {f : σ → τ} {g : ι → Option κ}
    (hmember : ∀ as s, sys.run as = some s → other.run (as.filterMap g) = some (f s))
    {as : List (FamilyAction ι)} {ss : List σ} (h : (family sys).run as = some ss) :
    (family other).run (as.filterMap (FamilyAction.filterMap g)) = some (ss.map f) := by
  have hm := members_run h
  refine run_of_members ⟨started_filterMap g hm.started, ?_, ?_⟩
  · rw [List.length_map, hm.count, spawned_filterMap]
  · intro i t hi
    rw [List.getElem?_map, Option.map_eq_some_iff] at hi
    obtain ⟨s, hs, rfl⟩ := hi
    rw [own_filterMap]
    exact hmember _ s (hm.run i s hs)

/-! ## §4. Measures. -/

theorem map_set_self {τ : Type} {f : σ → τ} {ss : List σ} {i : Nat} {s : σ}
    (hi : ss[i]? = some s) : (ss.map f).set i (f s) = ss.map f := by
  obtain ⟨hlt, hs⟩ := List.getElem?_eq_some_iff.mp hi
  rw [← List.map_set, ← hs, List.set_getElem_self]

/-- The sum over the members changes by what one of them changes. -/
theorem sum_map_set {m : σ → Nat} {ss : List σ} {i : Nat} {s : σ} (hi : ss[i]? = some s)
    (s' : σ) : ((ss.set i s').map m).sum + m s = (ss.map m).sum + m s' := by
  have hlt : i < (ss.map m).length := by
    rw [List.length_map]
    exact (List.getElem?_eq_some_iff.mp hi).1
  rw [List.map_set]
  conv_rhs => rw [← map_set_self hi]
  rw [List.sum_set, List.sum_set, if_pos hlt, if_pos hlt]
  omega

/-- **A family uses up the sum of its members' measures**: what each action of a
kind takes from the one member that acts, it takes from the sum. -/
theorem family_measure {I : σ → Prop} {P : ι → Prop} {m : σ → Nat}
    (hstep : ∀ s a s', I s → P a → sys.step s a = some s' → I s' ∧ m s' < m s)
    {ss ss' : List σ} {i : Nat} {a : ι} (hI : ∀ s ∈ ss, I s) (ha : P a)
    (h : (family sys).step ss (.act i a) = some ss') :
    (∀ s ∈ ss', I s) ∧ (ss'.map m).sum < (ss.map m).sum := by
  obtain ⟨s, hi, h⟩ := Option.bind_eq_some_iff.mp h
  obtain ⟨s', hs, rfl⟩ := Option.map_eq_some_iff.mp h
  obtain ⟨hI', hlt⟩ := hstep s a s' (hI s (List.mem_of_getElem? hi)) ha hs
  constructor
  · intro t ht
    rcases List.mem_or_eq_of_mem_set ht with hold | rfl
    · exact hI t hold
    · exact hI'
  · have hsum := sum_map_set (m := m) hi s'
    omega

/-- A family can go on as long as one of its members can. -/
theorem family_exists {I Q : σ → Prop} {P : ι → Prop}
    (hgo : ∀ s, I s → ¬ Q s → ∃ a s', P a ∧ sys.step s a = some s') {ss : List σ}
    (hI : ∀ s ∈ ss, I s) (hbusy : ¬ ∀ s ∈ ss, Q s) :
    ∃ i a ss', P a ∧ (family sys).step ss (.act i a) = some ss' := by
  obtain ⟨s, hs, hbusy⟩ : ∃ s ∈ ss, ¬ Q s := by
    by_contra hnone
    refine hbusy fun s hs => ?_
    by_contra hrest
    exact hnone ⟨s, hs, hrest⟩
  obtain ⟨i, hi⟩ := List.getElem?_of_mem hs
  obtain ⟨a, s', ha, hstep⟩ := hgo s (hI s hs) hbusy
  refine ⟨i, a, ss.set i s', ha, ?_⟩
  show (ss[i]?.bind fun s => _) = _
  rw [hi]
  show (sys.step s a).map _ = _
  rw [hstep]
  rfl

end Family

end Transition.System
