/-
  Bancho.Session.Quiescence
  ─────────────────────────
  The server comes to rest.  Once nothing more is accepted, received or enqueued,
  what was begun is carried to its end: the handlers finish their loops, and the
  writes in flight and those queued behind them end, sent or refused.

      effort  =  calls left to the loop  +  credit of the writes

  Each step that carries on uses up a part of the effort of the one session it
  belongs to, so the sum over the sessions bounds them all, in whatever order they
  come (`server_quiesces`).
-/
import Bancho.Reader.Effort
import Bancho.Session.Accepted

/-! ## §1. One session. -/

namespace Bancho.Connection

open Session Transition

/-- The action carries on what was begun: the loop of a handler, or a write. -/
def carriesOn : Action → Bool
  | .inl .consume => true
  | .inl _ => false
  | .inr a => a.completes

/-- No loop is running, and no write is in flight. -/
def Config.AtRest (c : Config) : Prop := c.phase ≠ .draining ∧ c.ops = []

/-- The most steps that what was begun still takes. -/
def Config.effort (c : Config) : Nat := c.reader.callsLeft + c.writer.credit

/-- **Each step that carries on uses up some of the effort.** -/
theorem effort_step {z : Zlib} (c : Config) (a : Action) (c' : Config) (hc : Sound c)
    (ha : carriesOn a = true) (hstep : (system z).step c a = some c') :
    Sound c' ∧ c'.effort < c.effort := by
  refine ⟨sound_step hc hstep, ?_⟩
  unfold Config.effort
  cases a with
  | inl a =>
      obtain ⟨r, hr, rfl⟩ := Option.map_eq_some_iff.mp hstep
      have htook := Reader.step_took hr
      have hconsume : a = .consume := by
        cases a with
        | consume => rfl
        | read _ | readError => exact nomatch ha
      have hless := Reader.callsLeft_took hconsume htook
      obtain ⟨hqueue, -⟩ := queue_took htook
      -- the writes are what they were, also if the socket is closed now
      have hsame : (c.readerDone r).writer.credit = c.writer.credit := by
        show (if c.ops = [] then 0
          else (c.ops.map AsyncWrite.Op.credit).sum
            + ((r.state.writeQueue.drop 1).map AsyncWrite.weight).sum) = _
        rw [hqueue]
        rfl
      rw [hsame]
      exact Nat.add_lt_add_right hless _
  | inr a =>
      obtain ⟨w, hw, rfl⟩ := Option.map_eq_some_iff.mp hstep
      obtain ⟨d, hrep, hready⟩ := hc
      have htook := AsyncWrite.step_took (l := .action a) hrep hready hw
      have hless := AsyncWrite.credit_took hrep hready ha htook
      have hsame : (c.writerDone w).reader.callsLeft = c.reader.callsLeft := by
        show (if c.phase = .draining then w.state.packetStream.length / 6 + 1 else 0) = _
        rw [(AsyncWrite.frame_took htook).2]
        rfl
      rw [hsame]
      exact Nat.add_lt_add_left hless _

/-- **Until it is at rest, a session can carry on**, whether its socket is open or
not. -/
theorem exists_carriesOn {z : Zlib} {c : Config} (hc : Sound c) (hbusy : ¬ c.AtRest) :
    ∃ a c', carriesOn a = true ∧ (system z).step c a = some c' := by
  obtain ⟨d, hrep, hready⟩ := hc
  by_cases hphase : c.phase = .draining
  · obtain ⟨r, hr⟩ := Reader.exists_consume (z := z) (c := c.reader) hphase
    refine ⟨.inl .consume, c.readerDone r, rfl, ?_⟩
    show ((Reader.system z).step c.reader .consume).map c.readerDone = _
    rw [hr]
    rfl
  · have hops : c.ops ≠ [] := fun hnone => hbusy ⟨hphase, hnone⟩
    obtain ⟨a, w, ha, -, hw⟩ := AsyncWrite.exists_completion hrep hready hops
    refine ⟨.inr a, c.writerDone w, ha, ?_⟩
    show (AsyncWrite.step c.writer a).map c.writerDone = _
    rw [hw]
    rfl

/-- What a session may still take, by what it holds. -/
theorem effort_le {c : Config} (hc : Sound c) :
    c.effort ≤ c.state.packetStream.length / 6 + 1
      + (2 * c.state.writeQueue.flatten.length + c.state.writeQueue.length) := by
  obtain ⟨d, hrep, hready⟩ := hc
  exact Nat.add_le_add (Reader.callsLeft_le c.reader) (AsyncWrite.credit_le hrep hready)

/-- Without a write in flight, and without an error, everything has been sent. -/
theorem flushed {z : Zlib} {as : List Action} {c : Config} (h : (system z).run as = some c)
    (hops : c.ops = []) (hgood : AsyncWrite.NoErrors c.writer) :
    c.state.writeQueue = [] ∧ c.socketBytes = (enqueuedOf as).flatten := by
  obtain ⟨r, w, hr, hw, rfl⟩ := run_sides h
  rw [← enqueuedOf_heard hr]
  exact AsyncWrite.flushed_idle hw hops hgood

end Bancho.Connection

/-! ## §2. The server. -/

namespace Bancho.Server

open Transition Transition.System

/-- The action carries on what was begun in a session. -/
def carriesOn : Action → Bool
  | .accept _ => false
  | .session _ a => Connection.carriesOn a

def Config.AtRest (c : Config) : Prop := ∀ s ∈ c.sessions, s.AtRest

def Config.effort (c : Config) : Nat := (c.sessions.map Connection.Config.effort).sum

def Sound (c : Config) : Prop := ∀ s ∈ c.sessions, Connection.Sound s

theorem sound_run {z : Zlib} {as : List Action} {c : Config} (h : (system z).run as = some c) :
    Sound c := by
  intro s hs
  obtain ⟨i, hi⟩ := List.getElem?_of_mem hs
  exact Connection.sound_run ((run_members h).2.run i s hi)

theorem effort_step {z : Zlib} (c : Config) (a : Action) (c' : Config) (hc : Sound c)
    (ha : carriesOn a = true) (hstep : (system z).step c a = some c') :
    Sound c' ∧ c'.effort < c.effort := by
  cases a with
  | accept ec => exact nomatch ha
  | session i a =>
      rw [step_session, Option.map_eq_some_iff] at hstep
      obtain ⟨ss, hss, rfl⟩ := hstep
      exact family_measure (P := fun a => Connection.carriesOn a = true) Connection.effort_step
        hc ha hss

theorem exists_carriesOn {z : Zlib} {c : Config} (hc : Sound c) (hbusy : ¬ c.AtRest) :
    ∃ a c', carriesOn a = true ∧ (system z).step c a = some c' := by
  obtain ⟨i, a, ss, ha, hstep⟩ := family_exists (Q := Connection.Config.AtRest)
    (P := fun a => Connection.carriesOn a = true)
    (fun _ hs hbusy => Connection.exists_carriesOn (z := z) hs hbusy) hc hbusy
  refine ⟨.session i a, { c with sessions := ss }, ha, ?_⟩
  rw [step_session, hstep]
  rfl

/-- **The server comes to rest.**  From every reachable state, steps that only carry
on what was begun come to an end, after one call for each six bytes held in a
`packet_stream` and one more, two steps for each byte queued and one for each
vector, at most, summed over the sessions.  Any run of such steps can be prolonged
to a state in which no loop is running and no write in flight, also where sockets
are closed; and a session without a write in flight, of whose writes none has
failed, has sent all that it enqueued. -/
theorem server_quiesces (z : Zlib) (as : List Action) (c : Config)
    (h : (system z).run as = some c) :
    (∀ bs c', (∀ b ∈ bs, carriesOn b = true) → (system z).runFrom c bs = some c' →
        bs.length ≤ (c.sessions.map fun s => s.state.packetStream.length / 6 + 1
            + (2 * s.state.writeQueue.flatten.length + s.state.writeQueue.length)).sum
          ∧ ∃ ds c'', (∀ d ∈ ds, carriesOn d = true) ∧ (system z).runFrom c' ds = some c''
            ∧ c''.AtRest)
      ∧ ∀ i s, c.sessions[i]? = some s → s.ops = [] → (∀ w ∈ s.ended, w.ec = false) →
          s.state.writeQueue = []
            ∧ s.socketBytes = (Connection.enqueuedOf (actionsOf i as)).flatten := by
  have hsound := sound_run h
  constructor
  · intro bs c' hbs hrun
    obtain ⟨hsound', hused⟩ := System.runFrom_measure (I := Sound)
      (P := fun a => carriesOn a = true) (m := Config.effort) effort_step hsound hbs hrun
    constructor
    · have hle : c.effort ≤ (c.sessions.map fun s => s.state.packetStream.length / 6 + 1
          + (2 * s.state.writeQueue.flatten.length + s.state.writeQueue.length)).sum :=
        List.sum_le_sum fun s hs => Connection.effort_le (hsound s hs)
      omega
    · obtain ⟨ds, c'', hds, hrun', -, hrest⟩ := System.exists_rest (I := Sound)
        (P := fun a => carriesOn a = true) (m := Config.effort) effort_step
        (fun _ hc hbusy => exists_carriesOn hc hbusy) hsound'
      exact ⟨ds, c'', hds, hrun', hrest⟩
  · intro i s hi hops hgood
    exact Connection.flushed ((run_members h).2.run i s hi) hops hgood

/-- The first session, when the socket has taken its packet. -/
def firstSent : Connection.Config :=
  { firstSession with ops := [⟨⟨[5], 0⟩, [5], some (false, 1)⟩], socketBytes := [5] }

theorem server_quiesces_two :
    (∃ ds c, (system fixedZlib).runFrom ⟨1, [firstSent, secondSession]⟩ ds = some c ∧ c.AtRest)
      ∧ secondSession.socketBytes = (Connection.enqueuedOf (actionsOf 1 twoSessions)).flatten := by
  obtain ⟨hcomes, hsent⟩ := server_quiesces fixedZlib twoSessions _ run_twoSessions
  obtain ⟨-, ds, c, -, hrun, hrest⟩ := hcomes [.session 0 (.inr (.send 0 1))]
    ⟨1, [firstSent, secondSession]⟩ (List.forall_mem_singleton.mpr rfl) (by decide +kernel)
  exact ⟨⟨ds, c, hrun, hrest⟩, (hsent 1 secondSession rfl rfl fun w hw => (nomatch hw)).2⟩

end Bancho.Server
