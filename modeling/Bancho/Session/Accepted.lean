/-
  Bancho.Session.Accepted
  ───────────────────────
  The sessions of a server are a family: each does what it would do alone, whatever
  order the completions of all of them come in.

      server  =  one async_accept  ∥  session₀  ∥  session₁  ∥  …

  What they share besides is not in the model: the threads of the `io_context`, and
  the memory, which no call is taken to run out of.

  Main results:
    * `server_invariant` — what holds in every session, and the memory of all;
    * `server_serves`    — a client is served whatever the others do.
-/
import Mathlib.Algebra.Order.BigOperators.Group.List
import Bancho.Library.Family
import Bancho.Server.FixedZlib
import Bancho.Server.Server
import Bancho.Session.Connection
import Bancho.Session.EndToEnd

namespace Bancho.Server

open Transition Transition.System

/-! ## §1. The server as a family. -/

/-- What an action is to the sessions: a failed accept is nothing. -/
def Action.toFamily : Action → Option (FamilyAction Connection.Action)
  | .accept ec => if ec then none else some .spawn
  | .session i a => some (.act i a)

def familyOf (as : List Action) : List (FamilyAction Connection.Action) :=
  as.filterMap Action.toFamily

/-- The connections that were accepted. -/
def accepted (as : List Action) : Nat := spawned (familyOf as)

/-- The actions of session number `i`. -/
def actionsOf (i : Nat) (as : List Action) : List Connection.Action := own i (familyOf as)

/-- What happens to a session is a step of the family. -/
theorem step_session (z : Zlib) (c : Config) (i : Nat) (a : Connection.Action) :
    (system z).step c (.session i a)
      = ((family (Connection.system z)).step c.sessions (.act i a)).map
          fun ss => { c with sessions := ss } := by
  show (c.sessions[i]?.bind fun s => ((Connection.system z).step s a).map fun s' => _)
    = Option.map _ (c.sessions[i]?.bind fun s =>
        ((Connection.system z).step s a).map fun s' => c.sessions.set i s')
  rw [Option.map_bind]
  congr 1
  funext s
  show _ = Option.map _ (Option.map _ _)
  rw [Option.map_map]
  rfl

/-- **The server is the family of its sessions**, and one outstanding accept. -/
theorem run_family (z : Zlib) (as : List Action) :
    (system z).run as
      = ((family (Connection.system z)).run (familyOf as)).map fun ss => ⟨1, ss⟩ := by
  show (system z).runFrom ⟨1, []⟩ as
    = ((family (Connection.system z)).runFrom [] (as.filterMap Action.toFamily)).map _
  refine System.runFrom_filterMap (f := fun ss => (⟨1, ss⟩ : Config)) (g := Action.toFamily)
    ?_ [] as
  intro ss a
  cases a with
  | accept ec => cases ec <;> rfl
  | session i a => exact step_session z ⟨1, ss⟩ i a

theorem run_members {z : Zlib} {as : List Action} {c : Config} (h : (system z).run as = some c) :
    c.accepts = 1 ∧ Members (Connection.system z) (familyOf as) c.sessions := by
  rw [run_family, Option.map_eq_some_iff] at h
  obtain ⟨ss, hss, rfl⟩ := h
  exact ⟨rfl, members_run hss⟩

/-! ## §2. What holds in every session. -/

/-- A read of one packet. -/
def packetRead : Session.ReadBytes where
  bytes := [1, 0, 0, 2, 0, 0, 0, 8, 9]
  pos := Nat.succ_pos _
  le := Nat.le_of_ble_eq_true rfl

/-- Two sessions: the first one reads a packet and has one to write, the second one
is gone at once. -/
def twoSessions : List Action :=
  [.accept false, .session 0 (.inl (.read packetRead)),
    .accept true, .accept false, .session 0 (.inl .consume), .session 1 (.inl .readError),
    .session 0 (.inr (.enqueue [5])), .session 0 (.inl .consume)]

/-- What becomes of the first one. -/
def firstSession : Connection.Config where
  state := { legacyHeader := some false, writeQueue := [[5]], writing := true }
  phase := .reading
  events := [.connect, .packet ⟨1, false, [8, 9]⟩]
  received := [1, 0, 0, 2, 0, 0, 0, 8, 9]
  ops := [⟨⟨[5], 0⟩, [5], none⟩]
  ended := []
  socketBytes := []
  isOpen := true

/-- And of the second. -/
def secondSession : Connection.Config :=
  { Connection.start with phase := .closed, events := [.connect, .disconnect], isOpen := false }

theorem run_twoSessions :
    (system fixedZlib).run twoSessions = some ⟨1, [firstSession, secondSession]⟩ := by
  decide +kernel

/-- **What every session of the server keeps**, and what all of them hold in their
`packet_stream`s, by the connections accepted. -/
theorem server_invariant (z : Zlib) (as : List Action) (c : Config)
    (h : (system z).run as = some c) :
    (∀ s ∈ c.sessions, (∃ frames, Reader.Framed z s.reader frames) ∧ Reader.Locked s.reader
        ∧ Reader.Ended s.reader ∧ s.ops.length ≤ 1
        ∧ ∀ o ∈ s.ops, s.state.writeQueue.head? = some o.buffers.buffer)
      ∧ (c.sessions.map fun s => s.state.packetStream.length).sum
          ≤ accepted as * (BanchoPacket.maxContentSize.toNat + 6 + Session.maxLength) := by
  obtain ⟨-, hm⟩ := run_members h
  constructor
  · intro s hs
    obtain ⟨i, hi⟩ := List.getElem?_of_mem hs
    obtain ⟨hframed, -, -, hlock, hended, d, hrep, hready⟩ :=
      Connection.session_invariant (hm.run i s hi)
    refine ⟨hframed, hlock, hended, ?_⟩
    rcases hrep.ops_cases hready with ⟨hnone, -⟩ | ⟨o, queue, hops, -, hqueue⟩
    · have hnone : s.ops = [] := hnone
      rw [hnone]
      exact ⟨Nat.zero_le 1, fun o ho => (nomatch ho)⟩
    · have hops : s.ops = [o] := hops
      have hqueue : s.state.writeQueue = o.buffers.buffer :: queue := hqueue
      rw [hops, hqueue]
      refine ⟨Nat.le_refl 1, fun o' ho => ?_⟩
      obtain rfl := List.mem_singleton.mp ho
      rfl
  · have hsum := List.sum_le_card_nsmul (c.sessions.map fun s => s.state.packetStream.length)
      (BanchoPacket.maxContentSize.toNat + 6 + Session.maxLength) ?_
    · rw [List.length_map, Nat.nsmul_eq_mul, hm.count] at hsum
      exact hsum
    · intro n hn
      obtain ⟨s, hs, rfl⟩ := List.mem_map.mp hn
      obtain ⟨i, hi⟩ := List.getElem?_of_mem hs
      exact Connection.packetStream_le (hm.run i s hi)

theorem server_invariant_two :
    Reader.Locked firstSession.reader ∧ firstSession.state.writeQueue.head? = some [5] := by
  have hkept := (server_invariant fixedZlib twoSessions _ run_twoSessions).1 firstSession
    List.mem_cons_self
  exact ⟨hkept.2.1, hkept.2.2.2.2 _ List.mem_cons_self⟩

/-! ## §3. Service. -/

/-- **A client is served whatever the others do.**  If what a session has received
are the first bytes of serialized packets, then it has delivered the first of
these packets, in order, and its socket is open unless a read failed.  With its
read armed it has delivered exactly those whose frames have arrived, and once all
have, all of them, with nothing left over. -/
theorem server_serves (z : Zlib) (hz : z.InflateInvertsDeflate) (hg : z.AcceptsOnlyGzip)
    (as : List Action) (c : Config) (h : (system z).run as = some c) (i : Nat)
    (s : Connection.Config) (hi : c.sessions[i]? = some s) (l : Bool)
    (msgs : List Reader.Outgoing) (wire : List (List UInt8))
    (hwire : List.Forall₂ (Reader.Serialized z l) msgs wire)
    (hbytes : s.received <+: wire.flatten) :
    packetsOf s.events <+: msgs.map (Reader.Outgoing.received l)
      ∧ (.readError ∉ System.lefts (actionsOf i as) → s.isOpen = true)
      ∧ (s.phase = .reading → ∃ k, k ≤ msgs.length
          ∧ packetsOf s.events = (msgs.take k).map (Reader.Outgoing.received l)
          ∧ ((wire.take k).flatten).length ≤ s.received.length
          ∧ (k < msgs.length → s.received.length < ((wire.take (k + 1)).flatten).length))
      ∧ (s.phase = .reading → s.received = wire.flatten →
          packetsOf s.events = msgs.map (Reader.Outgoing.received l)
            ∧ s.state.packetStream = []) := by
  have hrun : (Connection.system z).run (actionsOf i as) = some s := (run_members h).2.run i s hi
  have hopen := Connection.isOpen_run hrun
  -- the reader of the session is one on its own
  obtain ⟨r, w, hr, -, rfl⟩ := Connection.run_sides hrun
  have hread : r.received = Reader.bytesRead (System.lefts (actionsOf i as)) :=
    Reader.received_run hr
  have hbytes : r.received <+: wire.flatten := hbytes
  rw [hread] at hbytes
  obtain ⟨hinitial, hclear, hreading, hcomplete⟩ :=
    Session.reader_serialized hz hg hwire hr hbytes
  rw [← hread] at hreading hcomplete
  refine ⟨hinitial, fun hnone => ?_, hreading, hcomplete⟩
  rw [hopen, Bool.not_eq_true', ← Bool.not_eq_true, List.contains_iff_mem]
  exact hclear hnone

/-- The first of the two sessions got its packet, although the second one is gone. -/
theorem server_serves_first :
    packetsOf firstSession.events = [⟨1, false, [8, 9]⟩] ∧ firstSession.isOpen = true := by
  have hpacket : Reader.Serialized fixedZlib false ⟨1, [8, 9], false⟩
      [1, 0, 0, 2, 0, 0, 0, 8, 9] := ⟨by decide, by decide +kernel⟩
  have hall := server_serves fixedZlib FixedZlib.inflateInvertsDeflate FixedZlib.acceptsOnlyGzip
    twoSessions _ run_twoSessions 0 firstSession rfl false [⟨1, [8, 9], false⟩] _
    (.cons hpacket .nil) (List.prefix_refl _)
  have hread : Reader.Action.readError ∉ System.lefts (actionsOf 0 twoSessions) := by
    simp [actionsOf, familyOf, twoSessions, Action.toFamily, own, FamilyAction.ofMember,
      System.lefts]
  exact ⟨(hall.2.2.2 rfl rfl).1, hall.2.1 hread⟩

end Bancho.Server
