/-
  Bancho.Reader.Steps
  ───────────────────
  The small steps of a session.  `Took` says, one case for each thing that can
  happen, all that a step changes; the invariants of a session are shown over its
  cases and never unfold the step function.

  §2 ties the small steps to the handler: reading and then as many calls as the
  drain has frames, plus the one that stops the loop, is `deliver`, so every
  session `run z reads` is a reachable one (`run_reachable`); by §3 the small
  steps reach no other, but for read errors and for states inside the loop
  (`run_of_steps`).
-/
import Bancho.Reader.Simulation

namespace Bancho.Reader

open BanchoPacket Session Framing Transition

/-! ## §1. What a step can do. -/

namespace Config

variable (c : Config)

/-- The bytes of a read are appended, and the loop begins. -/
def withRead (r : ReadBytes) : Config :=
  { c with
    state := { c.state with packetStream := c.state.packetStream ++ r.bytes }
    phase := .draining
    received := c.received ++ r.bytes }

/-- `Disconnect`, and no read is armed. -/
def disconnected : Config := { c with phase := .closed, events := c.events ++ [.disconnect] }

/-- The next read is armed. -/
def rearmed : Config := { c with phase := .reading }

/-- A frame of `n` bytes came off the stream as the packet `p`. -/
def taken (p : Packet) (n : Nat) (m : Option Bool) : Config :=
  { c with
    state := { c.state with packetStream := c.state.packetStream.drop n, legacyHeader := m }
    events := c.events ++ [.packet p] }

end Config

theorem step_read (z : Zlib) (c : Config) (r : ReadBytes) :
    (system z).step c (.read r) = if c.phase = .reading then some (c.withRead r) else none := rfl

theorem step_readError (z : Zlib) (c : Config) :
    (system z).step c .readError = if c.phase = .reading then some c.disconnected else none := rfl

theorem step_consume (z : Zlib) (c : Config) :
    (system z).step c .consume =
      if c.phase = .draining then
        match wireAnswer z c.state.legacyHeader c.state.packetStream with
        | .more => some c.rearmed
        | .bad => some c.disconnected
        | .frame p n m => some (c.taken p n m)
      else none := by
  show step z c .consume = _
  unfold step
  by_cases hphase : c.phase = .draining
  · simp only [if_pos hphase, consumePacketStream_eq]
    cases wireAnswer z c.state.legacyHeader c.state.packetStream with
    | more => simp only [List.append_nil, Config.rearmed]
    | bad => simp only [List.append_nil, Config.disconnected]
    | frame p n m => rfl
  · simp only [if_neg hphase]

/-- `Took z c a c'`: the action `a` took the session from `c` to `c'`. -/
inductive Took (z : Zlib) (c : Config) : Action → Config → Prop
  | read (r : ReadBytes) (hphase : c.phase = .reading) : Took z c (.read r) (c.withRead r)
  | readError (hphase : c.phase = .reading) : Took z c .readError c.disconnected
  /-- `NeedMoreData`. -/
  | more (hphase : c.phase = .draining)
      (hanswer : wireAnswer z c.state.legacyHeader c.state.packetStream = .more) :
      Took z c .consume c.rearmed
  /-- `Invalid`. -/
  | bad (hphase : c.phase = .draining)
      (hanswer : wireAnswer z c.state.legacyHeader c.state.packetStream = .bad) :
      Took z c .consume c.disconnected
  /-- `Ok`, parsed under the format `l`: the locked one, or the one detected. -/
  | frame (p : Packet) (n : Nat) (l : Bool) (hphase : c.phase = .draining)
      (hanswer : wireAnswer z c.state.legacyHeader c.state.packetStream = .frame p n (some l))
      (hmode : c.state.legacyHeader = none ∨ c.state.legacyHeader = some l)
      (hparse : tryParsePacket z c.state.packetStream {} l = ⟨.ok, p, n⟩) :
      Took z c .consume (c.taken p n (some l))

/-- **A step of the session** is one of the five. -/
theorem step_took {z : Zlib} {c c' : Config} {a : Action} (h : (system z).step c a = some c') :
    Took z c a c' := by
  cases a with
  | read r =>
      rw [step_read] at h
      split at h
      next hphase =>
        obtain rfl := Option.some.inj h
        exact Took.read r hphase
      next => exact nomatch h
  | readError =>
      rw [step_readError] at h
      split at h
      next hphase =>
        obtain rfl := Option.some.inj h
        exact Took.readError hphase
      next => exact nomatch h
  | consume =>
      rw [step_consume] at h
      split at h
      next hphase =>
        cases hanswer : wireAnswer z c.state.legacyHeader c.state.packetStream with
        | more =>
            rw [hanswer] at h
            obtain rfl := Option.some.inj h
            exact Took.more hphase hanswer
        | bad =>
            rw [hanswer] at h
            obtain rfl := Option.some.inj h
            exact Took.bad hphase hanswer
        | frame p n m =>
            rw [hanswer] at h
            obtain ⟨l, rfl, hmode, hparse⟩ := wireAnswer_frame hanswer
            obtain rfl := Option.some.inj h
            exact Took.frame p n l hphase hanswer hmode hparse
      next => exact nomatch h

/-- And each of the five is a step. -/
theorem Took.step {z : Zlib} {c c' : Config} {a : Action} (h : Took z c a c') :
    (system z).step c a = some c' := by
  cases h with
  | read r hphase => rw [step_read, if_pos hphase]
  | readError hphase => rw [step_readError, if_pos hphase]
  | more hphase hanswer => rw [step_consume, if_pos hphase, hanswer]
  | bad hphase hanswer => rw [step_consume, if_pos hphase, hanswer]
  | frame p n l hphase hanswer _ _ => rw [step_consume, if_pos hphase, hanswer]

/-- A closed session takes no step. -/
theorem Took.not_closed {z : Zlib} {c c' : Config} {a : Action} (h : Took z c a c') :
    c.phase ≠ .closed := by
  cases h with
  | read r hphase | readError hphase | more hphase _ | bad hphase _ | frame p n l hphase _ _ _ =>
      rw [hphase]
      decide

/-! ## §2. The handler in small steps. -/

/-- The session after the loop drained `o`. -/
def Config.drained (c : Config) (o : Progress) : Config where
  state := settle c.state o
  phase := if o.bad then .closed else .reading
  events := c.events ++ drainEvents o
  received := c.received

/-- The outcome of the loop on the session as it is. -/
def Config.outcome (z : Zlib) (c : Config) : Progress :=
  (wireFramer z).drain c.state.legacyHeader c.state.packetStream

theorem drained_more {z : Zlib} {c : Config}
    (h : wireAnswer z c.state.legacyHeader c.state.packetStream = .more) :
    c.drained (c.outcome z) = c.rearmed := by
  rw [Config.outcome, Framer.drain_more (show (wireFramer z).parse _ _ = .more from h)]
  simp only [Config.drained, Config.rearmed, drainEvents, settle, List.map_nil,
    Bool.false_eq_true, if_false, List.append_nil]

theorem drained_bad {z : Zlib} {c : Config}
    (h : wireAnswer z c.state.legacyHeader c.state.packetStream = .bad) :
    c.drained (c.outcome z) = c.disconnected := by
  rw [Config.outcome, Framer.drain_bad (show (wireFramer z).parse _ _ = .bad from h)]
  simp only [Config.drained, Config.disconnected, drainEvents, settle, List.map_nil, if_true,
    List.nil_append]

/-- Draining a frame and then the rest is draining. -/
theorem drained_frame {z : Zlib} {c : Config} {p : Packet} {n : Nat} {m : Option Bool}
    (h : wireAnswer z c.state.legacyHeader c.state.packetStream = .frame p n m) :
    c.drained (c.outcome z) = (c.taken p n m).drained ((c.taken p n m).outcome z) := by
  rw [Config.outcome, Framer.drain_frame (show (wireFramer z).parse _ _ = .frame p n m from h)]
  have hevents : (c.taken p n m).events = c.events ++ [.packet p] := rfl
  show Config.mk _ _ (c.events ++ _) _ = Config.mk _ _ ((c.taken p n m).events ++ _) _
  rw [hevents, List.append_assoc c.events]
  rfl

/-- **The loop in small steps**: one call for each frame and one that stops. -/
theorem loop_steps (z : Zlib) (m : Option Bool) (s : List UInt8) :
    ∀ c : Config, c.phase = .draining → c.state.legacyHeader = m → c.state.packetStream = s →
      (system z).runFrom c
          (List.replicate (((wireFramer z).drain m s).frames.length + 1) .consume)
        = some (c.drained (c.outcome z)) := by
  induction m, s using Framer.drain.induct (wireFramer z) with
  | case1 m s h =>
      intro c hphase hm hs
      subst hm hs
      have hstep := (Took.more hphase h).step
      rw [Framer.drain_more h, drained_more h]
      show (system z).runFrom c [.consume] = _
      rw [System.runFrom_cons, hstep]
      rfl
  | case2 m s h =>
      intro c hphase hm hs
      subst hm hs
      have hstep := (Took.bad hphase h).step
      rw [Framer.drain_bad h, drained_bad h]
      show (system z).runFrom c [.consume] = _
      rw [System.runFrom_cons, hstep]
      rfl
  | case3 m s p n m' h ih =>
      intro c hphase hm hs
      subst hm hs
      obtain ⟨l, rfl, hmode, hparse⟩ := wireAnswer_frame h
      have hstep := (Took.frame p n l hphase h hmode hparse).step
      rw [Framer.drain_frame h, List.length_cons, List.replicate_succ, System.runFrom_cons, hstep,
        drained_frame h]
      -- the session after the frame is drained by the calls that are left
      show (system z).runFrom (c.taken p n (some l)) _ = _
      exact ih (c.taken p n (some l)) hphase rfl rfl

/-- A read that is delivered is appended and drained. -/
theorem deliver_eq (z : Zlib) (c : Config) (hphase : c.phase = .reading) (read : ReadBytes) :
    deliver z c read = (c.withRead read).drained ((c.withRead read).outcome z) := by
  have harmed : ∀ b : Bool, (if !b then Phase.reading else .closed) = if b then .closed else .reading :=
    by decide
  unfold deliver
  simp only [hphase, onRead_eq, harmed]
  rfl

/-- Without an outstanding read nothing is delivered. -/
theorem deliver_closed (z : Zlib) (c : Config) (hphase : c.phase ≠ .reading) (read : ReadBytes) :
    deliver z c read = c := by
  unfold deliver
  split
  next h => exact absurd h hphase
  next => rfl

/-- **A read and its loop** are one `deliver`. -/
theorem deliver_steps (z : Zlib) (c : Config) (hphase : c.phase = .reading) (read : ReadBytes) :
    ∃ k, (system z).runFrom c (.read read :: List.replicate (k + 1) .consume)
      = some (deliver z c read) := by
  have hloop := loop_steps z _ _ (c.withRead read) rfl rfl rfl
  refine ⟨((c.withRead read).outcome z).frames.length, ?_⟩
  rw [System.runFrom_cons, step_read, if_pos hphase, deliver_eq z c hphase]
  exact hloop

/-- The bytes that the reads among some actions brought. -/
def bytesRead (as : List Action) : List UInt8 :=
  as.flatMap fun
    | .read read => read.bytes
    | _ => []

/-- What a session has received is what its reads brought. -/
theorem received_run {z : Zlib} {as : List Action} {c : Config}
    (h : (system z).run as = some c) : c.received = bytesRead as := by
  refine System.runFrom_induction (P := fun as c => c.received = bytesRead as) rfl ?_ h
  intro as c a c' ih hstep
  unfold bytesRead at ih ⊢
  rw [List.flatMap_append]
  cases step_took hstep with
  | read r _ =>
      show c.received ++ r.bytes = _
      rw [ih]
      simp only [List.flatMap_cons, List.flatMap_nil, List.append_nil]
  | readError _ | more _ _ | bad _ _ | frame p n l _ _ _ _ =>
      show c.received = _
      rw [ih]
      exact (List.append_nil _).symm

/-- **Every session that read is reachable** in small steps. -/
theorem run_reachable (z : Zlib) (reads : List ReadBytes) :
    ∃ as, (system z).run as = some (run z reads) := by
  induction reads using List.reverseRecOn with
  | nil => exact ⟨[], rfl⟩
  | append_singleton reads read ih =>
      obtain ⟨as, has⟩ := ih
      rw [run_concat]
      -- a session that stopped reading stays as it is
      by_cases hphase : (run z reads).phase = .reading
      · obtain ⟨k, hk⟩ := deliver_steps z (run z reads) hphase read
        refine ⟨as ++ .read read :: List.replicate (k + 1) .consume, ?_⟩
        unfold System.run at has ⊢
        rw [System.runFrom_append, has]
        exact hk
      · refine ⟨as, ?_⟩
        rw [has, deliver_closed z _ hphase]

/-! ## §3. The small steps do nothing else. -/

/-- The reads among some actions. -/
def readsIn (as : List Action) : List ReadBytes :=
  as.filterMap fun
    | .read read => some read
    | _ => none

theorem readsIn_concat (as : List Action) (a : Action) :
    readsIn (as ++ [a]) = readsIn as ++ readsIn [a] := List.filterMap_append

/-- The session is what its reads make of a fresh one; inside the loop, once the
loop has drained it. -/
def Follows (z : Zlib) (as : List Action) (c : Config) : Prop :=
  (c.phase = .draining → c.drained (c.outcome z) = run z (readsIn as))
    ∧ (c.phase ≠ .draining → c = run z (readsIn as))

theorem follows_took {z : Zlib} {as : List Action} {c c' : Config} {a : Action}
    (h : Took z c a c') (hread : a ≠ .readError) (hi : Follows z as c) :
    Follows z (as ++ [a]) c' := by
  unfold Follows
  rw [readsIn_concat]
  cases h with
  | read r hphase =>
      -- the read is delivered once the loop it begins has drained it
      have hc : c = run z (readsIn as) := hi.2 (by rw [hphase]; decide)
      constructor
      · intro _
        show _ = run z (readsIn as ++ [r])
        rw [run_concat, ← hc, deliver_eq z c hphase]
      · intro hnot
        exact absurd rfl hnot
  | readError _ => exact absurd rfl hread
  | more hphase hanswer =>
      constructor
      · intro hdraining
        exact nomatch hdraining
      · intro _
        show _ = run z (readsIn as ++ [])
        rw [List.append_nil, ← hi.1 hphase, drained_more hanswer]
  | bad hphase hanswer =>
      constructor
      · intro hdraining
        exact nomatch hdraining
      · intro _
        show _ = run z (readsIn as ++ [])
        rw [List.append_nil, ← hi.1 hphase, drained_bad hanswer]
  | frame p n l hphase hanswer _ _ =>
      constructor
      · intro _
        show _ = run z (readsIn as ++ [])
        rw [List.append_nil, ← hi.1 hphase, drained_frame hanswer]
      · intro hnot
        exact absurd hphase hnot

/-- **Whatever the small steps reach** between two reads, without a read error,
is what the handlers of the reads make of a fresh session. -/
theorem run_of_steps {z : Zlib} {as : List Action} {c : Config}
    (h : (system z).run as = some c) (hread : .readError ∉ as) (hphase : c.phase ≠ .draining) :
    c = run z (readsIn as) := by
  have hfresh : Follows z [] start := ⟨fun hdraining => (nomatch hdraining), fun _ => rfl⟩
  -- carried along: no action so far was a read error
  refine (System.runFrom_induction (P := fun as c => .readError ∉ as → Follows z as c)
    (fun _ => hfresh) ?_ h hread).2 hphase
  intro as c a c' hi hstep hnone
  have hbefore : .readError ∉ as := fun hmem => hnone (List.mem_append_left _ hmem)
  have hnow : a ≠ .readError := by
    intro ha
    exact hnone (List.mem_append_right _ (ha ▸ List.mem_singleton_self a))
  exact follows_took (step_took hstep) hnow (hi hbefore)

end Bancho.Reader
