/-
  Bancho.Session.Memory
  ─────────────────────
  The memory of a server.  Its sessions are a family, each with the copies that
  keep it there (`server`), and without the copies it is the server of `Server.h`.

  A session whose client is gone is freed when its last write has ended.  As that
  comes about by itself, the server holds in the end only the sessions of the
  clients that are connected (`server_frees`).
-/
import Bancho.Session.Lifetime

namespace Bancho.Lifetime

open Transition Transition.System

/-! ## §1. The server with its copies. -/

/-- The sessions of a server, in memory or not any more. -/
def server (z : Zlib) : System (List Config) (FamilyAction Action) := family (system z)

def ofFamily : FamilyAction Connection.Action → Server.Action
  | .spawn => .accept false
  | .act i a => .session i a

/-- The same actions, on the server of `Server.h`. -/
def serverOf (as : List (FamilyAction Action)) : List Server.Action :=
  (as.filterMap (FamilyAction.filterMap Action.toSession)).map ofFamily

theorem familyOf_map (as : List (FamilyAction Connection.Action)) :
    Server.familyOf (as.map ofFamily) = as := by
  unfold Server.familyOf
  rw [List.filterMap_map]
  have hsame : Server.Action.toFamily ∘ ofFamily = some := by
    funext a
    cases a <;> rfl
  rw [hsame, List.filterMap_some]

/-- **Without the copies it is the server.** -/
theorem run_server {z : Zlib} {as : List (FamilyAction Action)} {ss : List Config}
    (h : (server z).run as = some ss) :
    (Server.system z).run (serverOf as) = some ⟨1, ss.map Config.session⟩ := by
  have hfamily : (family (Connection.system z)).run _ = some (ss.map Config.session) :=
    family_filterMap (fun as c hrun => (run_session hrun).1) h
  unfold serverOf
  rw [Server.run_family, familyOf_map, hfamily]
  rfl

/-! ## §2. What is freed. -/

/-- The session is in memory. -/
def Config.inMemory (c : Config) : Bool := 0 < c.useCount

/-- A session at rest, of which nobody keeps a copy, is in memory exactly as long as
its socket is open. -/
theorem inMemory_iff {z : Zlib} {as : List Action} {c : Config} (h : (system z).run as = some c)
    (hrest : c.session.AtRest) (hheld : c.held = 0) :
    c.inMemory = true ↔ c.session.isOpen = true := by
  obtain ⟨hrun, hc⟩ := run_session h
  have hcount : c.useCount = readers c.session + c.session.ops.length + c.held := hc
  rw [hrest.2, hheld] at hcount
  have hcount : c.useCount = readers c.session := hcount
  unfold Config.inMemory
  rw [decide_eq_true_iff, hcount, Connection.isOpen_iff hrun]
  unfold readers
  by_cases hclosed : c.session.phase = .closed
  · rw [if_pos hclosed]
    exact ⟨fun hpos => (nomatch hpos), fun hopen => absurd hclosed hopen⟩
  · rw [if_neg hclosed]
    exact ⟨fun _ => hclosed, fun _ => Nat.one_pos⟩

/-- The action carries on what was begun. -/
def carriesOn : Action → Bool
  | .session a => Connection.carriesOn a
  | _ => false

/-- What the steps of a session keep. -/
def Kept (c : Config) : Prop := Accounted c ∧ Connection.Sound c.session

theorem effort_step {z : Zlib} (c : Config) (a : Action) (c' : Config) (hc : Kept c)
    (ha : carriesOn a = true) (hstep : (system z).step c a = some c') :
    Kept c' ∧ c'.session.effort < c.session.effort := by
  cases a with
  | copy | drop => exact nomatch ha
  | session a =>
      obtain ⟨hs, -, haccounted⟩ := step_session hc.1 hstep
      obtain ⟨hsound, hless⟩ := Connection.effort_step c.session a c'.session hc.2 ha hs
      exact ⟨⟨haccounted, hsound⟩, hless⟩

theorem exists_carriesOn {z : Zlib} (c : Config) (hc : Kept c) (hbusy : ¬ c.session.AtRest) :
    ∃ a c', carriesOn a = true ∧ (system z).step c a = some c' := by
  obtain ⟨a, s, ha, hs⟩ := Connection.exists_carriesOn (z := z) hc.2 hbusy
  have hcopy : 0 < c.useCount := by
    have hcount : c.useCount = readers c.session + c.session.ops.length + c.held := hc.1
    by_contra hgone
    -- without a reader and a write there would be nothing to carry on
    refine hbusy ⟨fun hphase => ?_, List.length_eq_zero_iff.mp (by omega)⟩
    rw [readers_armed (by rw [hphase]; decide)] at hcount
    omega
  obtain ⟨c', hc', -⟩ := exists_step hc.1 hcopy hs
  exact ⟨.session a, c', ha, hc'⟩

/-! ## §3. The server. -/

theorem kept_run {z : Zlib} {as : List (FamilyAction Action)} {ss : List Config}
    (h : (server z).run as = some ss) : ∀ c ∈ ss, Kept c := by
  intro c hc
  obtain ⟨i, hi⟩ := List.getElem?_of_mem hc
  obtain ⟨hrun, haccounted⟩ := run_session ((members_run h).run i c hi)
  exact ⟨haccounted, Connection.sound_run hrun⟩

/-- The action carries on what was begun in a session. -/
def serverCarriesOn : FamilyAction Action → Bool
  | .spawn => false
  | .act _ a => carriesOn a

/-- Nobody comes by a copy, or drops one, where only what was begun is carried on. -/
theorem held_step {z : Zlib} {ss ss' : List Config} {a : FamilyAction Action}
    (hss : ∀ c ∈ ss, Kept c) (ha : serverCarriesOn a = true)
    (hstep : (server z).step ss a = some ss') : ss'.map Config.held = ss.map Config.held := by
  cases a with
  | spawn => exact nomatch ha
  | act i a =>
      obtain ⟨c, hi, hstep⟩ := Option.bind_eq_some_iff.mp hstep
      obtain ⟨c', hc', rfl⟩ := Option.map_eq_some_iff.mp hstep
      cases a with
      | copy | drop => exact nomatch ha
      | session a =>
          have hc := hss c (List.mem_of_getElem? hi)
          obtain ⟨-, hheld, -⟩ := step_session hc.1 hc'
          rw [List.map_set, hheld, map_set_self hi]

/-- `t` is `ss` some steps later that only carried on. -/
structure Carried (ss t : List Config) : Prop where
  kept : ∀ c ∈ t, Kept c
  held : t.map Config.held = ss.map Config.held

def effort (t : List Config) : Nat := (t.map fun c => c.session.effort).sum

theorem server_effort_step {z : Zlib} {ss : List Config} (t : List Config)
    (b : FamilyAction Action) (t' : List Config) (ht : Carried ss t)
    (hb : serverCarriesOn b = true) (hstep : (server z).step t b = some t') :
    Carried ss t' ∧ effort t' < effort t := by
  have hheld := held_step ht.kept hb hstep
  cases b with
  | spawn => exact nomatch hb
  | act i a =>
      obtain ⟨hkept, hless⟩ := family_measure (P := fun a => carriesOn a = true)
        (m := fun c : Config => c.session.effort) effort_step ht.kept hb hstep
      exact ⟨⟨hkept, hheld.trans ht.held⟩, hless⟩

theorem server_exists_carriesOn {z : Zlib} {ss : List Config} (t : List Config)
    (ht : Carried ss t) (hbusy : ¬ ∀ c ∈ t, c.session.AtRest) :
    ∃ b t', serverCarriesOn b = true ∧ (server z).step t b = some t' := by
  obtain ⟨i, a, t', ha, hstep⟩ := family_exists (P := fun a => carriesOn a = true)
    (Q := fun c : Config => c.session.AtRest) (exists_carriesOn (z := z)) ht.kept hbusy
  exact ⟨.act i a, t', ha, hstep⟩

/-- What the sessions in memory hold in their `packet_stream`s. -/
def buffered (ss : List Config) : Nat :=
  ((ss.filter Config.inMemory).map fun c => c.session.state.packetStream.length).sum

/-- The clients that are connected. -/
def connected (ss : List Config) : Nat := ss.countP fun c => c.session.isOpen

/-- **The server frees what it does not need.**  It is the server of `Server.h`, with
the copies that keep its sessions in memory.  From every reachable state it comes,
by steps that only carry on what was begun, to one in which each session of which
nobody keeps a copy is in memory exactly if its socket is open.  If nobody keeps
any, the `packet_stream`s in memory are then bounded by the clients connected, not
by those that ever were. -/
theorem server_frees (z : Zlib) (as : List (FamilyAction Action)) (ss : List Config)
    (h : (server z).run as = some ss) :
    (Server.system z).run (serverOf as) = some ⟨1, ss.map Config.session⟩
      ∧ ∃ bs ss', (∀ b ∈ bs, serverCarriesOn b = true) ∧ (server z).runFrom ss bs = some ss'
        ∧ ss'.map Config.held = ss.map Config.held
        ∧ (∀ c ∈ ss', c.held = 0 → (c.inMemory = true ↔ c.session.isOpen = true))
        ∧ ((∀ c ∈ ss, c.held = 0) → buffered ss'
            ≤ connected ss' * (BanchoPacket.maxContentSize.toNat + 6 + Session.maxLength)) := by
  refine ⟨run_server h, ?_⟩
  obtain ⟨bs, ss', hbs, hrun, hcarried, hrest⟩ := System.exists_rest
    (P := fun b => serverCarriesOn b = true) (m := effort)
    (Q := fun t => ∀ c ∈ t, c.session.AtRest)
    (server_effort_step (z := z)) server_exists_carriesOn (Carried.mk (kept_run h) rfl)
  have hreach : (server z).run (as ++ bs) = some ss' := by
    show (server z).runFrom _ (as ++ bs) = _
    rw [System.runFrom_append]
    show ((server z).run as).bind _ = _
    rw [h]
    exact hrun
  have hfreed : ∀ c ∈ ss', c.held = 0 → (c.inMemory = true ↔ c.session.isOpen = true) := by
    intro c hc hheld
    obtain ⟨i, hi⟩ := List.getElem?_of_mem hc
    exact inMemory_iff ((members_run hreach).run i c hi) (hrest c hc) hheld
  refine ⟨bs, ss', hbs, hrun, hcarried.held, hfreed, ?_⟩
  intro hnone
  have hnone' : ∀ c ∈ ss', c.held = 0 := by
    intro c hc
    have hmem : c.held ∈ ss.map Config.held := hcarried.held ▸ List.mem_map_of_mem hc
    obtain ⟨c₀, hc₀, hsame⟩ := List.mem_map.mp hmem
    rw [← hsame]
    exact hnone c₀ hc₀
  have hcount : (ss'.filter Config.inMemory).length = connected ss' := by
    rw [← List.countP_eq_length_filter]
    exact List.countP_congr fun c hc => hfreed c hc (hnone' c hc)
  have hsum := List.sum_le_card_nsmul
    ((ss'.filter Config.inMemory).map fun c => c.session.state.packetStream.length)
    (BanchoPacket.maxContentSize.toNat + 6 + Session.maxLength) ?_
  · rw [List.length_map, Nat.nsmul_eq_mul, hcount] at hsum
    exact hsum
  · intro n hn
    obtain ⟨c, hc, rfl⟩ := List.mem_map.mp hn
    obtain ⟨i, hi⟩ := List.getElem?_of_mem (List.mem_of_mem_filter hc)
    exact Connection.packetStream_le (run_session ((members_run hreach).run i c hi)).1

/-- Two clients, of which the first one is gone while its packet is being written. -/
def oneGone : List (FamilyAction Action) :=
  [.spawn, .act 0 (.session (.inr (.enqueue [5]))), .spawn, .act 0 (.session (.inl .readError))]

/-- The write in flight keeps the session of the first one in memory. -/
def afterOneGone : List Config :=
  [{ afterKeptCopy with useCount := 1, held := 0 }, start]

theorem server_frees_oneGone :
    ∃ bs ss', (server fixedZlib).runFrom afterOneGone bs = some ss'
      ∧ (∀ c ∈ ss', c.held = 0 → (c.inMemory = true ↔ c.session.isOpen = true))
      ∧ buffered ss' ≤ connected ss' * (4194304 + 6 + 1024) := by
  obtain ⟨-, bs, ss', -, hrun, -, hfreed, hbound⟩ :=
    server_frees fixedZlib oneGone afterOneGone (by decide +kernel)
  refine ⟨bs, ss', hrun, hfreed, hbound ?_⟩
  intro c hc
  rcases List.mem_cons.mp hc with rfl | hc
  · rfl
  · obtain rfl := List.mem_singleton.mp hc
    rfl

end Bancho.Lifetime
