/-
# `WarpProxy.Netstack.Sockets` — an entry, its socket and what the log has of them

The bytes of a connection pass through the buffers of its socket, those from the
remote through the receive buffer and those to it through the transmit buffer.
Either way the books are kept alike (`Books`): some bytes in the log, which only
visits put there, and beside them a value for the slot, which a connect starts
afresh and a poll changes.

    a command books nothing, and a connect brings a fresh socket    (`Books.Lawful.handled`)
    a turn of the loop books what it does to the socket              (`Books.Lawful.turn`)
    so the books balance after any step                              (`Books.Lawful.step`)
-/
import WarpProxy.Netstack.Outbound
import WarpProxy.Netstack.Tables

namespace WarpProxy.Netstack

/-! ## An entry and its socket after a command -/

section
variable {D : Deps} {w w' : World D}

/-- The entry and the socket of a handle after a command: both were there, or a connect has
brought them, the socket into a free slot. -/
theorem handleCmd_socket (hD : D.SocketSetLaws) (hs : InStep w) {cmd : Cmd}
    (hw : w.handleCmd cmd = some w') {k : Handle} {conn : Conn} {sock : D.Tcp}
    (hconn : w'.entry k = some conn) (hsock : D.tcp w'.actor.sockets k = some sock) :
    (∃ old, w.entry k = some old ∧ conn.fromNet = old.fromNet ∧
      D.tcp w.actor.sockets k = some sock) ∨
    ((∃ remote, cmd = .connect remote conn.fromNet) ∧ w.entry k = none ∧
      ∃ iface remote port iface',
        D.connect iface (D.newTcp sockBuf sockBuf) remote port = (iface', .ok sock)) := by
  have hhandled := handleCmd_handled hw
  -- unless it is a connect, the entry was there, and so was its socket
  have hold : (∀ remote c, cmd ≠ .connect remote c) →
      D.tcp w'.actor.sockets k = D.tcp w.actor.sockets k →
      ∃ old, w.entry k = some old ∧ conn.fromNet = old.fromNet ∧
        D.tcp w.actor.sockets k = some sock := by
    intro hnot htcp
    have hretains : Retains w w' := by
      refine hhandled.retains.resolve_right ?_
      rintro ⟨remote, c, hcmd, -⟩
      exact hnot remote c hcmd
    obtain ⟨old, hentry, halike⟩ := hretains k conn hconn
    exact ⟨old, hentry, halike.fromNet, htcp.symm.trans hsock⟩
  cases cmd with
  | inbound pkt =>
      cases hw
      exact .inl (hold (fun _ _ => Cmd.noConfusion) rfl)
  | resolve name r => exact .inl (hold (fun _ _ => Cmd.noConfusion) (handleResolve_tcp hD hs hw k))
  | send h data o =>
      refine .inl (hold (fun _ _ => Cmd.noConfusion) ?_)
      cases hw
      rw [World.handleSend]
      split <;> rfl
  | close h o =>
      refine .inl (hold (fun _ _ => Cmd.noConfusion) ?_)
      cases hw
      rw [World.handleClose]
      split <;> rfl
  | connect remote c =>
      obtain ⟨w'', x, hw'', hr, hx, hentry⟩ := handleConnect_rewrote hD w remote c
      rw [World.handleCmd, hw'', Option.some.injEq] at hw
      subst hw
      have hvacant : w.entry w.nextSlot = none := by
        have hslot := hs.tcp w.nextSlot
        rw [tcp_of_slot (nextSlot_free hD w)] at hslot
        exact Option.isSome_eq_false_iff.mp hslot.symm |> Option.isNone_iff_eq_none.mp
      -- away from the slot nothing has changed, and the slot has a fresh socket or no entry
      by_cases hk : k = w.nextSlot
      · subst hk
        rw [hentry] at hconn
        cases x with
        | none => rw [hvacant] at hconn; cases hconn
        | some sock' =>
            cases hconn
            have hfresh := hr.slot_self
            have hsame : sock = sock' :=
              Option.some.inj (hsock.symm.trans (Deps.tcp_of_get hfresh))
            obtain ⟨iface, hconnect⟩ := hx sock' rfl
            exact .inr ⟨⟨remote, rfl⟩, hvacant, _, _, _, iface, hsame ▸ hconnect⟩
      · rw [hr.entry_ne k hk] at hconn
        exact .inl ⟨conn, hconn, rfl, (Deps.tcp_congr (hr.slot_ne k hk)).symm.trans hsock⟩

end

/-! ## The books of a slot -/

/-- Bytes of a connection in the log that only its visits put there. -/
structure VisitsOnly (read : ConnId → List Event → List UInt8) : Prop where
  append : ∀ c log es, read c (log ++ es) = read c log ++ read c es
  other : ∀ {c es}, (∀ e ∈ es, e.conn ≠ c) → read c es = []
  sent : ∀ c k o data, read c [.sent k o data] = []
  closed : ∀ c k o, read c [.closed k o] = []
  replied : ∀ c k ok, read c [.replied k ok] = []

theorem VisitsOnly.handled {D : Deps} {read : ConnId → List Event → List UInt8}
    (hread : VisitsOnly read) {w w' : World D} {cmd : Cmd} (h : Handled w w' cmd) (c : ConnId) :
    read c w'.log = read c w.log := by
  cases h with
  | untouched _ hw _ => rw [hw.log]
  | inserted _ hi => rw [hi.log]
  | rejected _ hr => rw [hr.log, hread.append, hread.replied, List.append_nil]
  | sent _ hw => rw [hw.log, hread.append, hread.sent, List.append_nil]
  | closed _ hw => rw [hw.log, hread.append, hread.closed, List.append_nil]

/-- What is kept of each slot: the bytes booked in the log, and a value that is `fresh` for a new
socket and follows the socket through a poll.  `Balanced` ties the two to the socket. -/
structure Books (D : Deps) (α : Type) where
  read : ConnId → List Event → List UInt8
  fresh : α
  polled : α → D.Tcp → D.Tcp → α
  Balanced : α → List UInt8 → D.Tcp → Prop

namespace Books

section
variable {D : Deps} {α : Type} (L : Books D α)

/-- The value of a slot after a step; a slot without an entry starts again. -/
def next (l : Label) (s s' : System D) (h : Handle) (x : α) : α :=
  if s'.world.entry h = none then L.fresh
  else
    match l, D.tcp s.world.actor.sockets h, D.tcp s'.world.actor.sockets h with
    | .poll _, some sock, some sock' => L.polled x sock sock'
    | _, _, _ => x

/-- The books of every entry balance. -/
def Balances (x : Handle → α) (w : World D) : Prop :=
  ∀ h conn sock, w.entry h = some conn → D.tcp w.actor.sockets h = some sock →
    L.Balanced (x h) (L.read conn.fromNet w.log) sock

/-- What has to be known of the socket alone. -/
structure Lawful : Prop where
  visitsOnly : VisitsOnly L.read
  connected : ∀ iface rx tx remote port iface' sock,
    D.connect iface (D.newTcp rx tx) remote port = (iface', .ok sock) →
      L.Balanced L.fresh [] sock
  visited : ∀ h seams sock conn chan x bytes, L.Balanced x bytes sock →
    (visit D h seams sock conn chan).remove = false →
      L.Balanced x
        (bytes ++ L.read conn.fromNet ((visit D h seams sock conn chan).events conn.fromNet))
        (visit D h seams sock conn chan).sock
  polled : ∀ now iface device s h sock sock' x bytes, D.tcp s h = some sock →
    D.tcp (D.poll now iface device s).2.2 h = some sock' → L.Balanced x bytes sock →
      L.Balanced (L.polled x sock sock') bytes sock'

end

section
variable {D : Deps} {α : Type} {L : Books D α} {x : Handle → α} {w w' : World D}

/-- The entries keep their sockets, and nothing is booked. -/
theorem Balances.keep (hb : L.Balances x w) (hentry : Retains w w')
    (htcp : ∀ h, (w'.entry h).isSome → D.tcp w'.actor.sockets h = D.tcp w.actor.sockets h)
    (hlog : w'.log = w.log) : L.Balances x w' := by
  intro h conn sock hconn hsock
  obtain ⟨old, hold, halike⟩ := hentry h conn hconn
  rw [hlog, halike.fromNet]
  exact hb _ _ _ hold ((htcp h (by rw [hconn]; rfl)).symm.trans hsock)

theorem Lawful.turn (hL : L.Lawful) (hD : D.SocketSetLaws) (hout : Outbound w) {h : Handle}
    {seams : List Nat} (hturn : w.serviceSocket h seams = some w') (hb : L.Balances x w) :
    L.Balances x w' := by
  obtain ⟨sock, conn, hsock, hconn, -⟩ := serviceSocket_cases hturn
  obtain ⟨w'', hw'', hs, hr⟩ := serviceSocket_rewrote hD hsock hconn seams
  rw [hturn, Option.some.injEq] at hw''
  subst hw''
  have hlog := hs.log
  have hself := hs.entry_self
  simp only [visit_fromNet] at hlog
  intro k conn' sock' hentry htcp
  by_cases hk : k = h
  · subst hk
    rw [hself] at hentry
    split at hentry
    · cases hentry
    · next hkeep =>
        cases hentry
        have hslot := hr.slot_self
        rw [if_neg hkeep] at hslot
        have hvisit : sock' = _ := Option.some.inj (htcp.symm.trans (Deps.tcp_of_get hslot))
        rw [visit_fromNet, hlog, hL.visitsOnly.append, hvisit]
        exact hL.visited _ _ _ _ _ _ _ (hb _ _ _ hconn hsock) (Bool.not_eq_true _ ▸ hkeep)
  · -- the other entries: their sockets are not touched, the log is about another connection
    rw [hs.entry_ne k hk] at hentry
    have hnothing : L.read conn'.fromNet ((visit D h seams sock conn
        (w.chans conn.fromNet)).events conn.fromNet) = [] := by
      refine hL.visitsOnly.other fun e he heq => hk (hout.inj hentry hconn ?_)
      rw [← heq, Visit.events_conn _ _ e he]
    rw [hlog, hL.visitsOnly.append, hnothing, List.append_nil]
    exact hb _ _ _ hentry ((Deps.tcp_congr (hr.slot_ne k hk)).symm.trans htcp)

/-- A pass over the sockets, turn by turn. -/
theorem Lawful.pass (hL : L.Lawful) (hD : D.SocketSetLaws) (hout : Outbound w)
    {order : List (Handle × List Nat)} (hpass : w.serviceSockets order = some w')
    (hb : L.Balances x w) : L.Balances x w' := by
  have hboth : Outbound w' ∧ L.Balances x w' := by
    refine serviceSockets_invariant (fun w => Outbound w ∧ L.Balances x w) order ?_
      ⟨hout, hb⟩ hpass
    rintro w k seams w' - ⟨hout, hb⟩ hturn
    obtain ⟨sock, conn, -, hconn, hserviced⟩ := serviceSocket_cases hturn
    exact ⟨hout.turn hconn ⟨seams, sock, _, rfl⟩ hserviced, hL.turn hD hout hturn hb⟩
  exact hboth.2

/-- A new entry has a fresh socket, whose slot was free. -/
theorem Lawful.handled (hL : L.Lawful) (hD : D.SocketSetLaws) (hs : InStep w)
    (hfree : ∀ h, w.entry h = none → x h = L.fresh) {cmd : Cmd}
    (hnew : ∀ remote c, cmd = .connect remote c → w.Unborn c)
    (hw : w.handleCmd cmd = some w') (hb : L.Balances x w) : L.Balances x w' := by
  intro k conn sock hconn hsock
  rw [hL.visitsOnly.handled (handleCmd_handled hw)]
  rcases handleCmd_socket hD hs hw hconn hsock with
    ⟨old, hold, hfrom, hsock⟩ | ⟨⟨remote, rfl⟩, hvacant, iface, remote', port, iface', hconnect⟩
  · rw [hfrom]
    exact hb _ _ _ hold hsock
  · rw [hfree k hvacant, hL.visitsOnly.other (hnew remote _ rfl).1]
    exact hL.connected _ _ _ _ _ _ _ hconnect

end

section
variable {D : Deps} {α : Type} {L : Books D α} {x : Handle → α} {s s' : System D} {l : Label}

/-- Away from a poll the entries keep their values. -/
theorem Balances.next (hl : ∀ now, l ≠ .poll now) (hb : L.Balances x s'.world) :
    L.Balances (fun h => L.next l s s' h (x h)) s'.world := by
  intro h conn sock hconn hsock
  have hsame : L.next l s s' h (x h) = x h := by
    have hsome : s'.world.entry h ≠ none := by
      rw [hconn]
      exact Option.some_ne_none _
    simp only [Books.next, if_neg hsome]
    split
    · exact absurd rfl (hl _)
    · rfl
  show L.Balanced (L.next l s s' h (x h)) _ _
  rw [hsame]
  exact hb _ _ _ hconn hsock

theorem Lawful.poll (hL : L.Lawful) (hP : D.PollLaws) {now : Int}
    (h : s.stepActor (.poll now) = some s') (hb : L.Balances x s.world) :
    L.Balances (fun h => L.next (.poll now) s s' h (x h)) s'.world := by
  cases ActorStep.of_eq h
  intro k conn sock' hconn hsock'
  have hentry := hconn
  rw [System.resume, (poll_untouched s.world now).entry] at hconn
  -- a socket stays a socket, so it was there before
  obtain ⟨sock, hsock⟩ : ∃ sock, D.tcp s.world.actor.sockets k = some sock := by
    have hkind := hP.tcp_poll now s.world.actor.iface s.world.actor.device
      s.world.actor.sockets k
    exact Option.isSome_iff_exists.mp (hkind.symm.trans (congrArg Option.isSome hsock'))
  have hnext : L.next (.poll now) s (s.resume .servicing (some (s.world.poll now))) k (x k) =
      L.polled (x k) sock sock' := by
    simp only [Books.next, hentry, hsock, hsock', reduceCtorEq, if_false]
  show L.Balanced (L.next _ _ _ k (x k)) _ _
  rw [hnext]
  exact hL.polled _ _ _ _ _ _ _ _ _ hsock hsock' (hb _ _ _ hconn hsock)

theorem Lawful.actor (hL : L.Lawful) (hD : D.SocketSetLaws) (hr : Reachable s)
    (hs : InStep s.world) (hfree : ∀ h, s.world.entry h = none → x h = L.fresh)
    (h : s.stepActor l = some s') (hpoll : ∀ now, l ≠ .poll now) (hb : L.Balances x s.world) :
    L.Balances x s'.world := by
  cases ActorStep.of_eq h with
  | poll now => exact absurd rfl (hpoll now)
  | @service order =>
      cases hpass : s.world.serviceSockets order with
      | none => exact hb
      | some w => exact hL.pass hD hr.outbound hpass hb
  | dns =>
      cases hdns : s.world.serviceDns with
      | none => exact hb
      | some w =>
          have hsame := serviceDns_untouched hdns
          exact hb.keep (.of_eq hsame.entry)
            (fun k _ => serviceDnsFrom_tcp hD _ _ hs hdns k) hsame.log
  | recv =>
      obtain ⟨-, -, cmd, hq, ⟨-, hw⟩ | hw⟩ := stepActor_recv h
      · rw [hw]
        exact hb
      · refine hL.handled hD hs hfree ?_ hw hb
        rintro remote c rfl
        refine (hr.ids.queued c ?_).2
        rw [hq]
        exact List.mem_cons_self
  | timeout | drained => exact hb

/-- **One step**: the books balance with the values it leaves. -/
theorem Lawful.step (hL : L.Lawful) (hD : D.SocketSetLaws) (hP : D.PollLaws)
    (hr : Reachable s) (hs : InStep s.world)
    (hfree : ∀ h, s.world.entry h = none → x h = L.fresh) (hstep : Step s l s')
    (hb : L.Balances x s.world) :
    L.Balances (fun h => L.next l s s' h (x h)) s'.world := by
  by_cases hpoll : ∃ now, l = .poll now
  · obtain ⟨now, rfl⟩ := hpoll
    rcases step_cases hstep with h | h
    · exact hL.poll hP h hb
    · cases h
  · have hnot : ∀ now, l ≠ .poll now := fun now heq => hpoll ⟨now, heq⟩
    refine Balances.next hnot ?_
    rcases step_cases hstep with h | h
    · exact hL.actor hD hr hs hfree h hnot hb
    · -- the async side has neither the tables nor the log
      have hactor := (stepAsync_actor h).1
      have hlog : s'.world.log = s.world.log := by
        rcases stepAsync_cases h with ⟨remote, -, rfl⟩ | ⟨k, e, cmds, -, hside⟩
        · rfl
        · exact hside.same.log
      refine hb.keep (.of_eq ?_) (fun k _ => by rw [hactor]) hlog
      funext k
      rw [World.entry, World.entry, hactor]

end

end Books

end WarpProxy.Netstack
