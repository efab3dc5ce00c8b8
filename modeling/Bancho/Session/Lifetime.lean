/-
  Bancho.Session.Lifetime
  ───────────────────────
  Each copy of a session's `shared_ptr` has an owner that still needs it:

      use_count  =  the lambda of the read  +  one lambda for each write in flight
                    +  the copies kept elsewhere

  So nothing is released twice, a session is in memory as long as anything of it
  can still happen, and nothing can once it is not (`session_lifetime`).
-/
import Bancho.Server.FixedZlib
import Bancho.Server.Lifetime
import Bancho.Session.Quiescence

namespace Bancho.Lifetime

open BanchoPacket Session Transition

/-! ## §1. The account of the copies. -/

/-- The lambda of the read, waiting or running. -/
def readers (s : Connection.Config) : Nat := if s.phase = .closed then 0 else 1

/-- The owners of copies. -/
def Config.owners (c : Config) : Nat := readers c.session + c.session.ops.length + c.held

/-- Each copy has an owner, and each owner a copy. -/
def Accounted (c : Config) : Prop := c.useCount = c.owners

theorem release_defined {c : Config} {n : Nat} (h : c.useCount = n + 1) :
    c.release = some { c with useCount := n } := by
  unfold Config.release
  rw [if_pos (h ▸ Nat.succ_pos n), h]
  rfl

/-- The writer's functions with and without copies: the same session, and a copy
more for each write more. -/
structure Follows (c : Config) (w : AsyncWrite.Config) (c' : Config) : Prop where
  session : c'.session = c.session.writerDone w
  held : c'.held = c.held
  grows : c.session.ops.length ≤ w.ops.length
  count : c'.useCount + c.session.ops.length = c.useCount + w.ops.length

section Writer

variable {c : Config}

theorem follows_self (c : Config) : Follows c c.session.writer c := ⟨rfl, rfl, Nat.le_refl _, rfl⟩

/-- The header does the same with copies as without. -/
theorem corresponds_follows (c : Config) : Writer.Corresponds (Follows c) where
  queue := by
    intro w c' h
    show c'.session.state.writeQueue = _
    rw [h.session]
    rfl
  writing := by
    intro w c' h
    show c'.session.state.writing = _
    rw [h.session]
    rfl
  withQueue := by
    intro w c' h queue
    refine ⟨?_, h.held, h.grows, h.count⟩
    show { c'.session with state := { c'.session.state with writeQueue := queue } } = _
    rw [h.session]
    rfl
  withWriting := by
    intro w c' h writing
    refine ⟨?_, h.held, h.grows, h.count⟩
    show { c'.session with state := { c'.session.state with writing := writing } } = _
    rw [h.session]
    rfl
  asyncWrite := by
    intro w c' h buffer
    have hgrows := h.grows
    have hcount := h.count
    have hlen : (AsyncWrite.asyncWrite w buffer).ops.length = w.ops.length + 1 :=
      List.length_append
    refine ⟨?_, h.held, ?_, ?_⟩
    · show c'.session.writerDone (AsyncWrite.asyncWrite c'.session.writer buffer) = _
      rw [h.session]
      rfl
    · show c.session.ops.length ≤ (AsyncWrite.asyncWrite w buffer).ops.length
      omega
    · show c'.useCount + 1 + c.session.ops.length
        = c.useCount + (AsyncWrite.asyncWrite w buffer).ops.length
      omega

/-- The copy of the handler itself goes last. -/
theorem release_follows {n : Nat} (hcount : c.useCount = n + 1) {x : Option AsyncWrite.Config}
    {y : Option Config} (h : Option.Rel (Follows c) x y) :
    Option.Rel (Follows { c with useCount := n }) x (y.bind Config.release) := by
  cases h with
  | none => exact .none
  | @some w c' h =>
      have hgrows := h.grows
      have hold := h.count
      obtain ⟨m, hm⟩ : ∃ m, c'.useCount = m + 1 := Nat.exists_eq_succ_of_ne_zero (by omega)
      show Option.Rel _ (some w) c'.release
      rw [release_defined hm]
      refine .some ⟨h.session, h.held, hgrows, ?_⟩
      show m + c.session.ops.length = n + w.ops.length
      omega

theorem onWrite_follows {n : Nat} (hcount : c.useCount = n + 1) (ec : Bool) :
    Option.Rel (Follows { c with useCount := n }) (Writer.onWrite c.session.writer ec)
      (onWrite c ec) :=
  release_follows hcount ((corresponds_follows c).onWrite (follows_self c) ec)

end Writer

/-! ## §2. Each step keeps the account. -/

/-- The session with copies did what it does without. -/
structure Keeps (c : Config) (s : Connection.Config) (c' : Config) : Prop where
  session : c'.session = s
  held : c'.held = c.held
  accounted : Accounted c'

section Steps

variable {z : Zlib} {c : Config}

theorem release_copy (c : Config) : c.copy.release = some c := release_defined rfl

theorem readers_armed {s : Connection.Config} (h : s.phase ≠ .closed) : readers s = 1 := if_neg h

/-- The lambda goes on, or hands over to the next one. -/
theorem keeps_armed (hc : Accounted c) {s : Connection.Config} (hops : s.ops = c.session.ops)
    (hbefore : c.session.phase ≠ .closed) (hafter : s.phase ≠ .closed) :
    Keeps c s { c with session := s } := by
  refine ⟨rfl, rfl, ?_⟩
  show c.useCount = readers s + s.ops.length + c.held
  rw [readers_armed hafter, hops, ← readers_armed hbefore]
  exact hc

/-- The lambda returns, and no other takes its place. -/
theorem keeps_closed (hc : Accounted c) {s : Connection.Config} (hops : s.ops = c.session.ops)
    (hbefore : c.session.phase ≠ .closed) (hafter : s.phase = .closed) :
    Option.Rel (Keeps c) (some s) (Config.release { c with session := s }) := by
  have hcount : c.useCount = c.session.ops.length + c.held + 1 := by
    have haccount : c.useCount = readers c.session + c.session.ops.length + c.held := hc
    rw [haccount, readers_armed hbefore]
    omega
  rw [release_defined (c := { c with session := s }) hcount]
  refine .some ⟨rfl, rfl, ?_⟩
  show c.session.ops.length + c.held = readers s + s.ops.length + c.held
  unfold readers
  rw [if_pos hafter, hops]
  omega

theorem reader_keeps (hc : Accounted c) (a : Reader.Action) :
    Option.Rel (Keeps c) ((Connection.system z).step c.session (.inl a))
      (step z c (.session (.inl a))) := by
  show Option.Rel _ _ (((Connection.system z).step c.session (.inl a)).bind fun s =>
    readerStep z c.session.state { c with session := s } a)
  cases hstep : (Connection.system z).step c.session (.inl a) with
  | none => exact .none
  | some s =>
      obtain ⟨r, hr, rfl⟩ := Option.map_eq_some_iff.mp hstep
      have htook := Reader.step_took hr
      have hbefore : c.session.phase ≠ .closed := htook.not_closed
      show Option.Rel _ (some _) (readerStep z c.session.state _ a)
      cases htook with
      | read r _ => exact .some (keeps_armed hc rfl hbefore (fun h => nomatch h))
      | readError _ => exact keeps_closed hc rfl hbefore rfl
      | more _ hanswer =>
          have hcall : (Reader.consumePacketStream z c.session.state).1 = .needMoreData :=
            congrArg Prod.fst (Reader.consumePacketStream_more hanswer)
          show Option.Rel _ _ (afterConsume _ (Reader.consumePacketStream z c.session.state).1)
          rw [hcall]
          show Option.Rel _ _ (Config.release (Config.copy _))
          rw [release_copy]
          exact .some (keeps_armed hc rfl hbefore (fun h => nomatch h))
      | bad _ hanswer =>
          have hcall : (Reader.consumePacketStream z c.session.state).1 = .invalid :=
            congrArg Prod.fst (Reader.consumePacketStream_bad hanswer)
          show Option.Rel _ _ (afterConsume _ (Reader.consumePacketStream z c.session.state).1)
          rw [hcall]
          exact keeps_closed hc rfl hbefore rfl
      | frame p n l _ hanswer _ _ =>
          have hcall : (Reader.consumePacketStream z c.session.state).1 = .ok :=
            congrArg Prod.fst (Reader.consumePacketStream_frame hanswer)
          show Option.Rel _ _ (afterConsume _ (Reader.consumePacketStream z c.session.state).1)
          rw [hcall]
          exact .some (keeps_armed hc rfl hbefore hbefore)

/-- What the writer's functions leave is accounted for, the copy that a handler had
apart. -/
theorem keeps_follows {w : AsyncWrite.Config} {c₀ c' : Config} (h : Follows c₀ w c')
    (hcount : c₀.useCount = c₀.owners) (hheld : c₀.held = c.held)
    {s : Connection.Config} (hs : c₀.session.writerDone w = s) : Keeps c s c' := by
  obtain rfl := hs
  refine ⟨h.session, h.held.trans hheld, ?_⟩
  have hmoved := h.count
  show c'.useCount = readers c'.session + c'.session.ops.length + c'.held
  have hbefore : c₀.useCount = readers c₀.session + c₀.session.ops.length + c₀.held := hcount
  have hsame : readers (c₀.session.writerDone w) = readers c₀.session := rfl
  have hops : (c₀.session.writerDone w).ops = w.ops := rfl
  rw [h.session, h.held, hsame, hops]
  omega

/-- The socket answers, or `write_op` goes on: no lambda comes or goes. -/
theorem keeps_silent (hc : Accounted c) {w : AsyncWrite.Config}
    (hlen : w.ops.length = c.session.ops.length) :
    Keeps c (c.session.writerDone w) { c with session := c.session.writerDone w } := by
  have hcount : c.useCount + c.session.ops.length = c.useCount + w.ops.length := by rw [hlen]
  have hfollows : Follows c w { c with session := c.session.writerDone w } :=
    ⟨rfl, rfl, Nat.le_of_eq hlen.symm, hcount⟩
  exact keeps_follows hfollows hc rfl rfl

/-- The lambda of a write has run. -/
theorem keeps_handler (hc : Accounted c) {op : Nat} (hop : op < c.session.ops.length)
    (ended : List AsyncWrite.Ended) (ec : Bool) :
    Option.Rel (Keeps c)
      ((Writer.onWrite { c.session.writer with
        ops := c.session.ops.eraseIdx op, ended := ended } ec).map c.session.writerDone)
      (onWrite { c with session := { c.session with
        ops := c.session.ops.eraseIdx op, ended := ended } } ec) := by
  have hlen : (c.session.ops.eraseIdx op).length = c.session.ops.length - 1 :=
    List.length_eraseIdx_of_lt hop
  have haccount : c.useCount = readers c.session + c.session.ops.length + c.held := hc
  -- its own copy is still there while it runs
  obtain ⟨n, hn⟩ : ∃ n, c.useCount = n + 1 := Nat.exists_eq_succ_of_ne_zero (by omega)
  have hrest := onWrite_follows (c := { c with session := { c.session with
    ops := c.session.ops.eraseIdx op, ended := ended } }) hn ec
  refine Writer.rel_map hrest fun w c' h => keeps_follows (c := c) h ?_ rfl rfl
  show n = readers c.session + (c.session.ops.eraseIdx op).length + c.held
  omega

theorem writer_keeps (hc : Accounted c) (hcopy : 0 < c.useCount) (a : AsyncWrite.Action) :
    Option.Rel (Keeps c) ((Connection.system z).step c.session (.inr a))
      (step z c (.session (.inr a))) := by
  show Option.Rel _
    (Option.map _ (if AsyncWrite.enabled c.session.writer a then _ else none))
    (if AsyncWrite.enabled c.session.writer a then writerStep c a else none)
  by_cases henabled : AsyncWrite.enabled c.session.writer a = true
  · rw [if_pos henabled, if_pos henabled]
    cases a with
    | enqueue data =>
        show Option.Rel _ (Option.map _ (Writer.enqueue c.session.writer data))
          (if 0 < c.useCount then Writer.enqueue c data else none)
        rw [if_pos hcopy]
        exact Writer.rel_map ((corresponds_follows c).enqueue (follows_self c) data)
          fun w c' h => keeps_follows h hc rfl rfl
    | send op n | abort op =>
        show Option.Rel _ (Option.map _ (Option.map _ c.session.ops[op]?))
          (Option.map _ (Option.map _ c.session.ops[op]?))
        cases c.session.ops[op]? with
        | none => exact .none
        | some o => exact .some (keeps_silent hc List.length_set)
    | resume op =>
        show Option.Rel _ (Option.map _ (Option.bind c.session.ops[op]? _))
          (Option.bind c.session.ops[op]? _)
        cases hat : c.session.ops[op]? with
        | none => exact .none
        | some o =>
            show Option.Rel _ (Option.map _ (Option.bind o.result _)) (Option.bind o.result _)
            cases o.result with
            | none => exact .none
            | some r =>
                obtain ⟨ec, n⟩ := r
                simp only [Option.bind_some]
                cases AsyncWrite.writeOp o.buffers ec n false with
                | mk buffers continuation =>
                    cases continuation with
                    | writeSome chunk => exact .some (keeps_silent hc List.length_set)
                    | handler ec bytesTransferred =>
                        exact keeps_handler hc (List.getElem?_eq_some_iff.mp hat).1 _ ec
  · rw [if_neg henabled, if_neg henabled]
    exact .none

/-- **With copies or without, a session does the same**, as long as it is there, and
the account is kept. -/
theorem session_keeps (hc : Accounted c) (hcopy : 0 < c.useCount) (a : Connection.Action) :
    Option.Rel (Keeps c) ((Connection.system z).step c.session a) (step z c (.session a)) := by
  cases a with
  | inl a => exact reader_keeps hc a
  | inr a => exact writer_keeps hc hcopy a

/-- **Nothing happens to a session that is gone.** -/
theorem step_gone (hc : Accounted c) (hgone : c.useCount = 0) (a : Action) :
    (system z).step c a = none := by
  have hcount : c.useCount = readers c.session + c.session.ops.length + c.held := hc
  have hnot : ¬ 0 < c.useCount := Nat.not_lt_of_le (Nat.le_of_eq hgone)
  show step z c a = none
  cases a with
  | copy => exact if_neg hnot
  | drop => exact if_neg (by omega)
  | session a =>
      cases a with
      | inl a =>
          have hclosed : c.session.phase = .closed := by
            by_contra hopen
            rw [readers_armed hopen] at hcount
            omega
          have hstep : (Connection.system z).step c.session (.inl a) = none := by
            by_contra hne
            obtain ⟨s, hs⟩ := Option.ne_none_iff_exists'.mp hne
            obtain ⟨r, hr, -⟩ := Option.map_eq_some_iff.mp hs
            exact (Reader.step_took hr).not_closed hclosed
          show ((Connection.system z).step c.session (.inl a)).bind _ = none
          rw [hstep]
          rfl
      | inr a =>
          have hops : c.session.ops = [] := List.length_eq_zero_iff.mp (by omega)
          show (if _ then writerStep c a else none) = none
          cases a with
          | enqueue data =>
              show (if _ then (if 0 < c.useCount then Writer.enqueue c data else none) else none)
                = none
              rw [if_neg hnot, ite_self]
          | send op n =>
              refine if_neg ?_
              show ¬ (_ && Option.any _ c.session.ops[op]?) = true
              rw [hops, List.getElem?_nil, Option.any_none, Bool.and_false]
              exact Bool.false_ne_true
          | abort op | resume op =>
              -- there is no write to go on with
              refine if_neg ?_
              show ¬ Option.any _ c.session.ops[op]? = true
              rw [hops, List.getElem?_nil, Option.any_none]
              exact Bool.false_ne_true

end Steps

/-! ## §3. Whole sessions. -/

theorem sessionOf_concat (as : List Action) (a : Action) :
    sessionOf (as ++ [a]) = sessionOf as ++ sessionOf [a] := List.filterMap_append

theorem accounted_start : Accounted start := rfl

/-- A session is there when something happens to it. -/
theorem useCount_pos {z : Zlib} {c c' : Config} {a : Action} (hc : Accounted c)
    (hstep : (system z).step c a = some c') : 0 < c.useCount := by
  rcases Nat.eq_zero_or_pos c.useCount with hgone | hcopy
  · exact nomatch (step_gone hc hgone a).symm.trans hstep
  · exact hcopy

theorem step_session {z : Zlib} {c c' : Config} {a : Connection.Action} (hc : Accounted c)
    (hstep : (system z).step c (.session a) = some c') :
    (Connection.system z).step c.session a = some c'.session ∧ c'.held = c.held
      ∧ Accounted c' := by
  obtain ⟨s, hs, hsession, hheld, haccounted⟩ :=
    Writer.rel_exists_left (session_keeps (z := z) hc (useCount_pos hc hstep) a) hstep
  exact ⟨hs.trans (congrArg some hsession.symm), hheld, haccounted⟩

/-- Unless it is gone, a session can do what it could do without the copies. -/
theorem exists_step {z : Zlib} {c : Config} (hc : Accounted c) (hcopy : 0 < c.useCount)
    {a : Connection.Action} {s : Connection.Config}
    (hs : (Connection.system z).step c.session a = some s) :
    ∃ c', (system z).step c (.session a) = some c' ∧ c'.session = s := by
  obtain ⟨c', hstep, hkeeps⟩ := Writer.rel_exists_right (session_keeps (z := z) hc hcopy a) hs
  exact ⟨c', hstep, hkeeps.session⟩

theorem run_session {z : Zlib} {as : List Action} {c : Config} (h : (system z).run as = some c) :
    (Connection.system z).run (sessionOf as) = some c.session ∧ Accounted c := by
  refine System.runFrom_induction (P := fun as c =>
    (Connection.system z).run (sessionOf as) = some c.session ∧ Accounted c)
    ⟨rfl, accounted_start⟩ ?_ h
  rintro as c a c' ⟨hrun, hc⟩ hstep
  have hcopy := useCount_pos hc hstep
  rw [sessionOf_concat]
  have hcount : c.useCount = readers c.session + c.session.ops.length + c.held := hc
  cases a with
  | session a =>
      obtain ⟨hs, -, haccounted⟩ := step_session hc hstep
      exact ⟨System.runFrom_concat.mpr ⟨c.session, hrun, hs⟩, haccounted⟩
  | copy =>
      have hstep : (if 0 < c.useCount then some _ else none) = some c' := hstep
      rw [if_pos hcopy] at hstep
      obtain rfl := Option.some.inj hstep
      refine ⟨(List.append_nil (sessionOf as)).symm ▸ hrun, ?_⟩
      show c.useCount + 1 = readers c.session + c.session.ops.length + (c.held + 1)
      omega
  | drop =>
      have hstep : (if 0 < c.held then _ else none) = some c' := hstep
      split at hstep
      next hheld =>
        obtain ⟨n, hn⟩ : ∃ n, c.useCount = n + 1 := Nat.exists_eq_succ_of_ne_zero (by omega)
        rw [release_defined (c := { c with held := c.held - 1 }) hn] at hstep
        obtain rfl := Option.some.inj hstep
        refine ⟨(List.append_nil (sessionOf as)).symm ▸ hrun, ?_⟩
        show n = readers c.session + c.session.ops.length + (c.held - 1)
        omega
      next => exact nomatch hstep

/-- **The life of a session.**  Its copies are one for the lambda of the read, as long
as a read is armed or its handler runs, one for each write in flight, and those
kept elsewhere.  With its copies it does what it does without, so none is released
that is not there; it is in memory as long as its socket is open; and once it is
not in memory, nothing can happen to it. -/
theorem session_lifetime (z : Zlib) (as : List Action) (c : Config)
    (h : (system z).run as = some c) :
    (Connection.system z).run (sessionOf as) = some c.session
      ∧ c.useCount
          = (if c.session.phase = .closed then 0 else 1) + c.session.ops.length + c.held
      ∧ (0 < c.useCount → ∀ a s, (Connection.system z).step c.session a = some s →
          ∃ c', (system z).step c (.session a) = some c' ∧ c'.session = s)
      ∧ (c.session.isOpen = true → 0 < c.useCount)
      ∧ (c.useCount = 0 → ∀ a, (system z).step c a = none) := by
  obtain ⟨hrun, hc⟩ := run_session h
  have hcount : c.useCount = readers c.session + c.session.ops.length + c.held := hc
  refine ⟨hrun, hcount, fun hcopy a s hs => exists_step hc hcopy hs, ?_, step_gone hc⟩
  intro hopen
  have harmed := (Connection.isOpen_iff hrun).mp hopen
  rw [readers_armed harmed] at hcount
  omega

/-- A client sends nothing and is gone while its packet is being written; somebody
has kept a copy. -/
def keptCopy : List Action :=
  [.copy, .session (.inr (.enqueue [5])), .session (.inl .readError)]

def afterKeptCopy : Config where
  session :=
    { Connection.start with
      state := { writeQueue := [[5]], writing := true }
      phase := .closed, events := [.connect, .disconnect]
      ops := [⟨⟨[5], 0⟩, [5], none⟩], isOpen := false }
  useCount := 2
  held := 1

theorem session_lifetime_keptCopy :
    ∃ c', (system fixedZlib).step afterKeptCopy (.session (.inr (.abort 0))) = some c' := by
  have hlife := session_lifetime fixedZlib keptCopy afterKeptCopy (by decide +kernel)
  have hstep : ((Connection.system fixedZlib).step afterKeptCopy.session
      (.inr (.abort 0))).isSome = true := by decide +kernel
  obtain ⟨s, hs⟩ := Option.isSome_iff_exists.mp hstep
  obtain ⟨c', hc', -⟩ := hlife.2.2.1 (Nat.succ_pos 1) _ s hs
  exact ⟨c', hc'⟩

end Bancho.Lifetime
