/-
# `WarpProxy.Netstack.Spec` — what each function of the actor does

One lemma for each function, in terms of what the rest of the development reads:
the entry of a handle, the log, the replies, the channels, the port counter.
Nothing after this module unfolds a function of `WarpProxy.Netstack.Actor`.

    the flush loop splits `out_buf`, and ends        (`flush_append`)
    a turn of the loop touches one connection        (`serviceSocket_cases`)
    a pass keeps what its turns keep                 (`serviceSockets_invariant`)
    a connect is inserted or refused                 (`handleConnect_cases`)
-/
import WarpProxy.Netstack.System

namespace WarpProxy.Netstack

section
variable {D : Deps}

/-- The connection an event is about. -/
def Event.conn : Event → ConnId
  | .sent c _ _ | .closed c _ | .accepted c _ | .fin c | .taken c _ | .replied c _
  | .removed c => c

/-- The entry of a handle. -/
def World.entry (w : World D) (h : Handle) : Option Conn := w.actor.conns.lookup h

/-- A part of a value that is written back as it was. -/
theorem update_part {ι α β : Type} [DecidableEq ι] (f : α → β) {g : ι → α} {i : ι} {x : α}
    (hx : f x = f (g i)) (j : ι) : f (Function.update g i x j) = f (g j) := by
  by_cases hj : j = i
  · rw [hj, Function.update_self, hx]
  · rw [Function.update_of_ne hj]

/-! ## The loops of a visit -/

/-- What the socket takes is the front of `out_buf`. -/
theorem flush_append (seams : List Nat) (sock : D.Tcp) (outBuf : List UInt8) :
    (flush seams sock outBuf).accepted ++ (flush seams sock outBuf).outBuf = outBuf := by
  induction seams, sock, outBuf using flush.induct with
  | case1 seams sock outBuf h head _ sock' hs =>
      rw [flush, if_pos h]
      simp only [head] at hs
      simp only [hs, List.nil_append]
  | case2 seams sock outBuf h head n hn sock' hs ih =>
      rw [flush, if_pos h]
      -- the slice begins where `out_buf` does, and what was taken of it lies within
      have htaken : head.take (n + 1) = outBuf.take (n + 1) := by
        rw [List.take_take, Nat.min_eq_left (Nat.le_trans hn (List.length_take_le ..))]
      simp only [head] at hs htaken
      simp only [hs, htaken, List.append_assoc, ih, List.take_append_drop]
  | case3 seams sock outBuf h head sock' hs =>
      rw [flush, if_pos h]
      simp only [head] at hs
      simp only [hs, List.nil_append]
  | case4 seams sock outBuf h => rw [flush, if_neg h, List.nil_append]

theorem flush_state (hD : D.CloseLaws) (seams : List Nat) (sock : D.Tcp)
    (outBuf : List UInt8) : D.state (flush seams sock outBuf).sock = D.state sock := by
  induction seams, sock, outBuf using flush.induct with
  | case1 seams sock outBuf h head _ sock' hs | case3 seams sock outBuf h head sock' hs =>
      rw [flush, if_pos h]
      simp only [head] at hs
      simp only [hs]
      rw [← hD.state_sendSlice sock, hs]
  | case2 seams sock outBuf h head n _ sock' hs ih =>
      rw [flush, if_pos h]
      simp only [head] at hs
      simp only [hs, ih]
      rw [← hD.state_sendSlice sock, hs]
  | case4 seams sock outBuf h => rw [flush, if_neg h]

theorem pump_state (hD : D.CloseLaws) (sock : D.Tcp) (chan : Chan) :
    D.state (pump sock chan).sock = D.state sock := by
  induction sock, chan using pump.induct with
  | case1 sock chan h hroom _ sock' hs =>
      rw [pump, if_pos h, dif_pos hroom]
      simp only [hs]
      rw [← hD.state_recvSlice sock, hs]
  | case2 sock chan h hroom b bs _ sock' hs ih =>
      rw [pump, if_pos h, dif_pos hroom]
      simp only [hs, ih]
      rw [← hD.state_recvSlice sock, hs]
  | case3 sock chan h hroom sock' hs =>
      rw [pump, if_pos h, dif_pos hroom]
      simp only [hs]
      rw [← hD.state_recvSlice sock, hs]
  | case4 sock chan h hroom => rw [pump, if_pos h, dif_neg hroom]
  | case5 sock chan h => rw [pump, if_neg h]

/-- The loop adds to the channel what it takes, and leaves the ends alone. -/
theorem pump_chan (sock : D.Tcp) (chan : Chan) :
    (pump sock chan).chan.queue.flatten = chan.queue.flatten ++ (pump sock chan).taken ∧
      (pump sock chan).chan.tx = chan.tx ∧ (pump sock chan).chan.rx = chan.rx := by
  induction sock, chan using pump.induct with
  | case1 sock chan h hroom _ sock' hs | case3 sock chan h hroom sock' hs =>
      rw [pump, if_pos h, dif_pos hroom]
      simp only [hs, List.append_nil, and_self]
  | case2 sock chan h hroom b bs _ sock' hs ih =>
      rw [pump, if_pos h, dif_pos hroom]
      simp only [hs]
      refine ⟨ih.1.trans ?_, ih.2⟩
      simp only [List.flatten_append, List.flatten_cons, List.flatten_nil, List.append_nil,
        List.append_assoc]
  | case4 sock chan h hroom =>
      rw [pump, if_pos h, dif_neg hroom]
      exact ⟨(List.append_nil _).symm, rfl, rfl⟩
  | case5 sock chan h =>
      rw [pump, if_neg h]
      exact ⟨(List.append_nil _).symm, rfl, rfl⟩

/-! ## A visit -/

section
variable (h : Handle) (seams : List Nat) (sock : D.Tcp) (conn : Conn) (chan : Chan)

@[simp] theorem visit_fromNet : (visit D h seams sock conn chan).conn.fromNet = conn.fromNet := rfl

@[simp] theorem visit_closing : (visit D h seams sock conn chan).conn.closing = conn.closing := rfl

/-- What the socket took, then what is left, is what there was. -/
theorem visit_outBuf : (visit D h seams sock conn chan).accepted ++
    (visit D h seams sock conn chan).conn.outBuf = conn.outBuf :=
  flush_append ..

/-- `sock.close()` is called when `closing` is set and the flush has emptied `out_buf`. -/
theorem visit_closes : (visit D h seams sock conn chan).closes = true ↔
    conn.closing = true ∧ (visit D h seams sock conn chan).conn.outBuf = [] := by
  simp only [visit, Bool.and_eq_true, List.isEmpty_iff]

theorem visit_connectReply : (visit D h seams sock conn chan).conn.connectReply = true ↔
    conn.connectReply = true ∧ (visit D h seams sock conn chan).outcome = none := by
  simp only [visit, Bool.and_eq_true, Option.isNone_iff_eq_none]

/-- A reply is sent to a connect that has had none, and an `Ok` carries the handle. -/
theorem visit_outcome {r : Except String Handle}
    (hr : (visit D h seams sock conn chan).outcome = some r) :
    conn.connectReply = true ∧
      ((D.state sock = .established ∧ r = .ok h) ∨
        (D.isActive sock = false ∧ r = .error "connection refused")) := by
  simp only [visit, connectOutcome] at hr
  split at hr
  · next hreply =>
      refine ⟨hreply, ?_⟩
      split at hr
      · next hest => exact .inl ⟨hest, (Option.some.inj hr).symm⟩
      · split at hr
        · cases hr
        · next hactive =>
            exact .inr ⟨Bool.not_eq_true _ ▸ hactive, (Option.some.inj hr).symm⟩
  · cases hr

/-- An entry goes when its connect is refused or its socket is closed. -/
theorem visit_remove : (visit D h seams sock conn chan).remove = true ↔
    (∃ e, (visit D h seams sock conn chan).outcome = some (.error e)) ∨
      D.state (visit D h seams sock conn chan).sock = .closed := by
  simp only [visit, Bool.or_eq_true, beq_iff_eq]
  refine or_congr ?_ Iff.rfl
  cases connectOutcome D conn sock h with
  | none => exact ⟨fun h => (nomatch h), fun ⟨_, h⟩ => (nomatch h)⟩
  | some r =>
      cases r with
      | ok k => exact ⟨fun h => (nomatch h), fun ⟨_, h⟩ => (nomatch h)⟩
      | error e => exact ⟨fun _ => ⟨e, rfl⟩, fun _ => rfl⟩

theorem visit_chan : (visit D h seams sock conn chan).chan.tx = chan.tx ∧
    (visit D h seams sock conn chan).chan.rx = chan.rx :=
  (pump_chan ..).2

end

/-- Everything in the log of a visit is about its connection. -/
theorem Visit.events_conn (v : Visit D) (c : ConnId) : ∀ e ∈ v.events c, e.conn = c := by
  intro e he
  simp only [Visit.events, List.mem_append, List.mem_cons, List.not_mem_nil, or_false] at he
  rcases he with ((he | rfl | rfl) | he) | he
  · cases ho : v.outcome with
    | none => rw [ho] at he; cases he
    | some r => rw [ho] at he; rw [List.mem_singleton.mp he]; rfl
  · rfl
  · rfl
  · split at he
    · rw [List.mem_singleton.mp he]; rfl
    · cases he
  · split at he
    · rw [List.mem_singleton.mp he]; rfl
    · cases he

/-! ## One turn of `service_sockets` -/

section
variable (w : World D) (h : Handle) (v : Visit D)

theorem writeBack_actor : (w.writeBack h v).actor =
    { w.actor with
      sockets := D.set w.actor.sockets h (.inl v.sock)
      conns := w.actor.conns.insert h v.conn } := by
  simp only [World.writeBack]
  cases v.outcome <;> rfl

theorem writeBack_log : (w.writeBack h v).log = w.log ++ v.events v.conn.fromNet := by
  simp only [World.writeBack]
  cases v.outcome <;> rfl

theorem writeBack_chans :
    (w.writeBack h v).chans = Function.update w.chans v.conn.fromNet v.chan := by
  simp only [World.writeBack]
  cases v.outcome <;> rfl

theorem writeBack_connects : (w.writeBack h v).connects = w.connects := by
  simp only [World.writeBack]
  cases v.outcome <;> rfl

theorem writeBack_replies : (w.writeBack h v).replies =
    match v.outcome with
    | some r =>
        Function.update w.replies v.conn.fromNet ((w.replies v.conn.fromNet).send r)
    | none => w.replies := by
  simp only [World.writeBack]
  cases v.outcome <;> rfl

theorem writeBack_value : ((w.writeBack h v).replies v.conn.fromNet).value =
    match v.outcome with
    | some r => if (w.replies v.conn.fromNet).rx then some r else none
    | none => (w.replies v.conn.fromNet).value := by
  rw [writeBack_replies]
  cases v.outcome with
  | none => rfl
  | some r => simp only [Function.update_self, Oneshot.send]

theorem writeBack_reply_ne {c : ConnId} (hc : c ≠ v.conn.fromNet) :
    (w.writeBack h v).replies c = w.replies c := by
  rw [writeBack_replies]
  cases v.outcome with
  | none => rfl
  | some r => exact Function.update_of_ne hc ..

theorem writeBack_rx (c : ConnId) : ((w.writeBack h v).replies c).rx = (w.replies c).rx := by
  by_cases hc : c = v.conn.fromNet
  · subst hc
    rw [writeBack_replies]
    cases v.outcome with
    | none => rfl
    | some r => simp only [Function.update_self, Oneshot.send]
  · rw [writeBack_reply_ne w h v hc]

theorem dropConn_actor (conn : Conn) : (w.dropConn conn).actor = w.actor := by
  rw [World.dropConn]
  split <;> rfl

theorem dropConn_log (conn : Conn) : (w.dropConn conn).log = w.log := by
  rw [World.dropConn]
  split <;> rfl

theorem dropConn_connects (conn : Conn) : (w.dropConn conn).connects = w.connects := by
  rw [World.dropConn]
  split <;> rfl

theorem dropConn_chans (conn : Conn) : (w.dropConn conn).chans =
    Function.update w.chans conn.fromNet { w.chans conn.fromNet with tx := false } := by
  rw [World.dropConn]
  split <;> rfl

theorem dropConn_replies_ne (conn : Conn) {c : ConnId} (hc : c ≠ conn.fromNet) :
    (w.dropConn conn).replies c = w.replies c := by
  rw [World.dropConn]
  split
  · exact Function.update_of_ne hc ..
  · rfl

/-- Dropping an entry says nothing on its oneshot. -/
theorem dropConn_reply (conn : Conn) (c : ConnId) :
    ((w.dropConn conn).replies c).value = (w.replies c).value ∧
      ((w.dropConn conn).replies c).rx = (w.replies c).rx := by
  by_cases hc : c = conn.fromNet
  · subst hc
    rw [World.dropConn]
    split
    · simp only [Function.update_self]
      exact ⟨rfl, rfl⟩
    · exact ⟨rfl, rfl⟩
  · rw [dropConn_replies_ne w conn hc]
    exact ⟨rfl, rfl⟩

end

/-- What a turn with the visit `v` to the entry `conn` of `h` leaves. -/
structure Serviced (w w' : World D) (h : Handle) (v : Visit D) : Prop where
  entry_self : w'.entry h = if v.remove then none else some v.conn
  entry_ne : ∀ k, k ≠ h → w'.entry k = w.entry k
  log : w'.log = w.log ++ v.events v.conn.fromNet
  nextPort : w'.actor.nextPort = w.actor.nextPort
  connects : w'.connects = w.connects
  chan_self : w'.chans v.conn.fromNet = { v.chan with tx := v.chan.tx && !v.remove }
  chan_ne : ∀ c, c ≠ v.conn.fromNet → w'.chans c = w.chans c
  value_self : (w'.replies v.conn.fromNet).value =
    match v.outcome with
    | some r => if (w.replies v.conn.fromNet).rx then some r else none
    | none => (w.replies v.conn.fromNet).value
  reply_ne : ∀ c, c ≠ v.conn.fromNet → w'.replies c = w.replies c
  reply_rx : ∀ c, (w'.replies c).rx = (w.replies c).rx
  reply_tx : v.outcome = none → v.remove = false →
    (w'.replies v.conn.fromNet).tx = (w.replies v.conn.fromNet).tx

theorem writeBack_serviced (w : World D) (h : Handle) (v : Visit D) (hv : v.remove = false) :
    Serviced w (w.writeBack h v) h v where
  entry_self := by
    rw [World.entry, writeBack_actor, hv]
    exact AList.lookup_insert _
  entry_ne k hk := by
    rw [World.entry, writeBack_actor]
    exact AList.lookup_insert_ne hk
  log := writeBack_log w h v
  nextPort := by rw [writeBack_actor]
  connects := writeBack_connects w h v
  chan_self := by
    rw [writeBack_chans, Function.update_self, hv, Bool.not_false, Bool.and_true]
  chan_ne c hc := by rw [writeBack_chans, Function.update_of_ne hc]
  value_self := writeBack_value w h v
  reply_ne _ hc := writeBack_reply_ne w h v hc
  reply_rx := writeBack_rx w h v
  reply_tx ho _ := by rw [writeBack_replies, ho]

theorem removeConn_serviced {w w' : World D} {h : Handle} {v : Visit D}
    (hv : v.remove = true) (hw : (w.writeBack h v).removeConn h v.conn = some w') :
    Serviced w w' h v := by
  rw [World.removeConn] at hw
  split at hw
  · cases hw
  · next sockets _ =>
      rw [Option.some.injEq] at hw
      subst hw
      constructor
      · rw [World.entry, dropConn_actor, hv, if_pos rfl]
        exact AList.lookup_erase ..
      · intro k hk
        rw [World.entry, dropConn_actor]
        refine (AList.lookup_erase_ne hk).trans ?_
        rw [writeBack_actor]
        exact AList.lookup_insert_ne hk
      · rw [dropConn_log]; exact writeBack_log w h v
      · rw [dropConn_actor]
        show (w.writeBack h v).actor.nextPort = _
        rw [writeBack_actor]
      · rw [dropConn_connects]; exact writeBack_connects w h v
      · rw [dropConn_chans, Function.update_self, hv]
        simp only [writeBack_chans, Function.update_self, Bool.not_true, Bool.and_false]
      · intro c hc
        rw [dropConn_chans, Function.update_of_ne hc, writeBack_chans,
          Function.update_of_ne hc]
      · exact (dropConn_reply _ _ _).1.trans (writeBack_value w h v)
      · intro c hc
        rw [dropConn_replies_ne _ _ hc]
        exact writeBack_reply_ne w h v hc
      · intro c
        exact (dropConn_reply _ _ _).2.trans (writeBack_rx w h v c)
      · intro _ hkeep
        rw [hv] at hkeep
        cases hkeep

theorem serviceSocket_cases {w w' : World D} {h : Handle} {seams : List Nat}
    (hw : w.serviceSocket h seams = some w') :
    ∃ sock conn, D.tcp w.actor.sockets h = some sock ∧ w.entry h = some conn ∧
      Serviced w w' h (visit D h seams sock conn (w.chans conn.fromNet)) := by
  rw [World.serviceSocket] at hw
  split at hw
  · next sock conn hsock hconn =>
      refine ⟨sock, conn, hsock, hconn, ?_⟩
      generalize visit D h seams sock conn (w.chans conn.fromNet) = v at hw ⊢
      cases hv : v.remove with
      | false =>
          simp only [hv, Bool.false_eq_true, if_false, Option.some.injEq] at hw
          rw [← hw]
          exact writeBack_serviced w h v hv
      | true =>
          simp only [hv, if_true] at hw
          exact removeConn_serviced hv hw
  · cases hw

/-- The same connection, which does not stop closing. -/
structure Conn.Alike (conn old : Conn) : Prop where
  fromNet : conn.fromNet = old.fromNet
  remote : conn.remote = old.remote
  localPort : conn.localPort = old.localPort
  serial : conn.serial = old.serial
  closing : old.closing = true → conn.closing = true

/-- Every entry was there, for the same connection. -/
def Retains (w w' : World D) : Prop :=
  ∀ k conn, w'.entry k = some conn → ∃ old, w.entry k = some old ∧ conn.Alike old

theorem Retains.of_eq {w w' : World D} (h : w'.entry = w.entry) : Retains w w' :=
  fun _ _ he => ⟨_, h ▸ he, ⟨rfl, rfl, rfl, rfl, id⟩⟩

theorem Retains.trans {w w₁ w' : World D} (h : Retains w w₁) (h' : Retains w₁ w') :
    Retains w w' := by
  intro k conn he
  obtain ⟨mid, hmid, halike'⟩ := h' k conn he
  obtain ⟨old, hold, halike⟩ := h k mid hmid
  exact ⟨old, hold, halike'.fromNet.trans halike.fromNet, halike'.remote.trans halike.remote,
    halike'.localPort.trans halike.localPort, halike'.serial.trans halike.serial,
    fun hc => halike'.closing (halike.closing hc)⟩

theorem Serviced.retains {w w' : World D} {h : Handle} {seams : List Nat} {sock : D.Tcp}
    {conn : Conn} {chan : Chan} (hs : Serviced w w' h (visit D h seams sock conn chan))
    (hconn : w.entry h = some conn) : Retains w w' := by
  intro k conn' he
  by_cases hk : k = h
  · subst hk
    rw [hs.entry_self] at he
    split at he
    · cases he
    · exact ⟨conn, hconn, Option.some.inj he ▸ ⟨rfl, rfl, rfl, rfl, id⟩⟩
  · rw [hs.entry_ne k hk] at he
    exact ⟨conn', he, ⟨rfl, rfl, rfl, rfl, id⟩⟩

/-- An `Ok` in a oneshot was there, or is the reply of this visit. -/
theorem Serviced.value_ok {w w' : World D} {h : Handle} {seams : List Nat} {sock : D.Tcp}
    {conn : Conn} {chan : Chan} (hs : Serviced w w' h (visit D h seams sock conn chan))
    {c : ConnId} {k : Handle} (hvalue : (w'.replies c).value = some (.ok k)) :
    (w.replies c).value = some (.ok k) ∨ (c = conn.fromNet ∧ k = h) := by
  by_cases hc : c = conn.fromNet
  · have hself := hs.value_self
    simp only [visit_fromNet] at hself
    rw [hc, hself] at hvalue
    cases ho : (visit D h seams sock conn chan).outcome with
    | none =>
        rw [ho] at hvalue
        exact .inl (hc ▸ hvalue)
    | some r =>
        rw [ho] at hvalue
        have hr : r = .ok k := by
          by_cases hrx : (w.replies conn.fromNet).rx = true
          · exact Option.some.inj ((if_pos hrx).symm.trans hvalue)
          · cases (if_neg hrx).symm.trans hvalue
        rcases (visit_outcome _ _ _ _ _ ho).2 with ⟨-, rfl⟩ | ⟨-, rfl⟩
        · exact .inr ⟨hc, (Except.ok.inj hr).symm⟩
        · cases hr
  · exact .inl (hs.reply_ne c hc ▸ hvalue)

/-- A pass keeps what each of its turns keeps. -/
theorem serviceSockets_invariant (P : World D → Prop) (order : List (Handle × List Nat))
    {w w' : World D}
    (hstep : ∀ w h seams w', (h, seams) ∈ order → P w → w.serviceSocket h seams = some w' → P w')
    (hw : P w) (h : w.serviceSockets order = some w') : P w' := by
  induction order generalizing w with
  | nil =>
      rw [World.serviceSockets, Option.some.injEq] at h
      exact h ▸ hw
  | cons p order ih =>
      obtain ⟨k, seams⟩ := p
      rw [World.serviceSockets] at h
      split at h
      · cases h
      · next w₁ hturn =>
          have hw₁ : P w₁ := hstep w k seams w₁ List.mem_cons_self hw hturn
          exact ih (fun w h seams w' hmem => hstep w h seams w' (List.mem_cons_of_mem _ hmem))
            hw₁ h

/-- A pass brings no entry. -/
theorem serviceSockets_retains {w w' : World D} {order : List (Handle × List Nat)}
    (hpass : w.serviceSockets order = some w') : Retains w w' := by
  refine serviceSockets_invariant (fun w' => Retains w w') order ?_ (.of_eq rfl) hpass
  intro w₁ h seams w₂ _ hret hturn
  obtain ⟨sock, conn, -, hconn, hs⟩ := serviceSocket_cases hturn
  exact hret.trans (hs.retains hconn)

/-- A pass is the turns before a key, its own, and the turns after it. -/
theorem serviceSockets_split (before : List (Handle × List Nat)) {k : Handle}
    {seams : List Nat} {after : List (Handle × List Nat)} {w w' : World D}
    (h : w.serviceSockets (before ++ (k, seams) :: after) = some w') :
    ∃ w₁ w₂, w.serviceSockets before = some w₁ ∧ w₁.serviceSocket k seams = some w₂ ∧
      w₂.serviceSockets after = some w' := by
  induction before generalizing w with
  | nil =>
      rw [List.nil_append, World.serviceSockets] at h
      split at h
      · cases h
      · next w₂ hturn => exact ⟨w, w₂, rfl, hturn, h⟩
  | cons p before ih =>
      obtain ⟨j, seams'⟩ := p
      rw [List.cons_append, World.serviceSockets] at h
      split at h
      · cases h
      · next w₀ hturn =>
          obtain ⟨w₁, w₂, h₁, h₂, h₃⟩ := ih h
          refine ⟨w₁, w₂, ?_, h₂, h₃⟩
          rw [World.serviceSockets, hturn]
          exact h₁

/-! ## Commands -/

/-- A function that leaves the connections alone. -/
structure Untouched (w w' : World D) : Prop where
  entry : w'.entry = w.entry
  chans : w'.chans = w.chans
  replies : w'.replies = w.replies
  log : w'.log = w.log
  nextPort : w'.actor.nextPort = w.actor.nextPort
  connects : w'.connects = w.connects

theorem Untouched.refl (w : World D) : Untouched w w := ⟨rfl, rfl, rfl, rfl, rfl, rfl⟩

theorem handleInbound_untouched (w : World D) (pkt : List UInt8) :
    Untouched w (w.handleInbound pkt) :=
  ⟨rfl, rfl, rfl, rfl, rfl, rfl⟩

theorem poll_untouched (w : World D) (now : Int) : Untouched w (w.poll now) :=
  ⟨rfl, rfl, rfl, rfl, rfl, rfl⟩

theorem handleResolve_untouched {w w' : World D} {name : String} {r : ResolveId}
    (h : w.handleResolve name r = some w') : Untouched w w' := by
  rw [World.handleResolve] at h
  split at h
  · rw [Option.some.injEq] at h
    rw [← h]
    exact ⟨rfl, rfl, rfl, rfl, rfl, rfl⟩
  · split at h
    · cases h
    · split at h <;>
      · rw [Option.some.injEq] at h
        rw [← h]
        exact ⟨rfl, rfl, rfl, rfl, rfl, rfl⟩

theorem Untouched.trans {w w' w'' : World D} (h : Untouched w w') (h' : Untouched w' w'') :
    Untouched w w'' :=
  ⟨h'.entry.trans h.entry, h'.chans.trans h.chans, h'.replies.trans h.replies,
    h'.log.trans h.log, h'.nextPort.trans h.nextPort, h'.connects.trans h.connects⟩

theorem serviceDnsFrom_untouched (pending kept : List (PendingDns D)) {w w' : World D}
    (h : w.serviceDnsFrom kept pending = some w') : Untouched w w' := by
  induction pending generalizing kept w with
  | nil =>
      rw [World.serviceDnsFrom, Option.some.injEq] at h
      rw [← h]
      exact ⟨rfl, rfl, rfl, rfl, rfl, rfl⟩
  | cons p pending ih =>
      rw [World.serviceDnsFrom] at h
      split at h
      · cases h
      · split at h
        · cases h
        · split at h
          all_goals
            exact .trans (by exact ⟨rfl, rfl, rfl, rfl, rfl, rfl⟩) (ih _ h)

theorem serviceDns_untouched {w w' : World D} (h : w.serviceDns = some w') : Untouched w w' :=
  serviceDnsFrom_untouched _ _ h

/-- What a `Send` or a `Close` that finds the entry of `h` leaves: the entry is now `conn`, and
the log has `e`. -/
structure Wrote (w w' : World D) (h : Handle) (conn : Conn) (e : Event) : Prop where
  entry_self : w'.entry h = some conn
  entry_ne : ∀ k, k ≠ h → w'.entry k = w.entry k
  log : w'.log = w.log ++ [e]
  chans : w'.chans = w.chans
  replies : w'.replies = w.replies
  nextPort : w'.actor.nextPort = w.actor.nextPort
  connects : w'.connects = w.connects

theorem setConn_wrote (w : World D) (h : Handle) (conn : Conn) (e : Event) :
    Wrote w ((w.setConn h conn).record e) h conn e :=
  ⟨AList.lookup_insert _, fun _ hk => AList.lookup_insert_ne hk, rfl, rfl, rfl, rfl, rfl⟩

theorem Wrote.retains {w w' : World D} {h : Handle} {conn conn' : Conn} {e : Event}
    (hw : Wrote w w' h conn' e) (hconn : w.entry h = some conn) (halike : conn'.Alike conn) :
    Retains w w' := by
  intro k conn'' he
  by_cases hk : k = h
  · subst hk
    rw [hw.entry_self, Option.some.injEq] at he
    exact ⟨conn, hconn, he ▸ halike⟩
  · rw [hw.entry_ne k hk] at he
    exact ⟨conn'', he, ⟨rfl, rfl, rfl, rfl, id⟩⟩

/-! ### Connect -/

namespace World
variable (w : World D)

/-- The slot `sockets.add` hands out next. -/
def nextSlot : Handle := (D.add w.actor.sockets (.inl (D.newTcp sockBuf sockBuf))).1

/-- smoltcp takes the connect to `remote`. -/
def Accepts (remote : SocketAddr) : Prop :=
  ∃ sock iface sock', D.tcp (D.add w.actor.sockets (.inl (D.newTcp sockBuf sockBuf))).2 w.nextSlot
      = some sock ∧
    D.connect w.actor.iface sock remote w.actor.nextPort = (iface, .ok sock')

/-- The entry a connect gets. -/
def newConn (remote : SocketAddr) (c : ConnId) : Conn where
  fromNet := c
  outBuf := []
  connectReply := true
  closing := false
  remote := remote
  localPort := w.actor.nextPort
  serial := w.connects

/-- The port counter after one more connect. -/
def portAfter : UInt16 := if w.actor.nextPort = 65535 then 49152 else w.actor.nextPort + 1

end World

/-- What a connect that smoltcp takes leaves. -/
structure Inserted (w w' : World D) (remote : SocketAddr) (c : ConnId) : Prop where
  entry_self : w'.entry w.nextSlot = some (w.newConn remote c)
  entry_ne : ∀ k, k ≠ w.nextSlot → w'.entry k = w.entry k
  log : w'.log = w.log
  nextPort : w'.actor.nextPort = w.portAfter
  connects : w'.connects = w.connects + 1
  chan : ∀ k, (∀ old, w.entry w.nextSlot = some old → old.fromNet ≠ k) → w'.chans k = w.chans k
  reply : ∀ k, (∀ old, w.entry w.nextSlot = some old → old.fromNet ≠ k) →
    w'.replies k = w.replies k
  value : ∀ k, (w'.replies k).value = (w.replies k).value
  reply_rx : ∀ k, (w'.replies k).rx = (w.replies k).rx

/-- What a connect that smoltcp refuses leaves. -/
structure Rejected (w w' : World D) (c : ConnId) : Prop where
  entry : w'.entry = w.entry
  log : w'.log = w.log ++ [.replied c false]
  nextPort : w'.actor.nextPort = w.portAfter
  connects : w'.connects = w.connects + 1
  chan_ne : ∀ k, k ≠ c → w'.chans k = w.chans k
  value_self : (w'.replies c).value = none ∨ ∃ e, (w'.replies c).value = some (.error e)
  reply_ne : ∀ k, k ≠ c → w'.replies k = w.replies k
  reply_rx : ∀ k, (w'.replies k).rx = (w.replies k).rx

/-- An entry is the new one or was there. -/
theorem Inserted.entry_cases {w w' : World D} {remote : SocketAddr} {c : ConnId}
    (hi : Inserted w w' remote c) {k : Handle} {conn : Conn} (he : w'.entry k = some conn) :
    (k = w.nextSlot ∧ conn = w.newConn remote c) ∨
      (k ≠ w.nextSlot ∧ w.entry k = some conn) := by
  by_cases hk : k = w.nextSlot
  · rw [hk, hi.entry_self, Option.some.injEq] at he
    exact .inl ⟨hk, he.symm⟩
  · exact .inr ⟨hk, hi.entry_ne k hk ▸ he⟩

section
variable (w : World D) (h : Handle) (conn : Conn)

theorem insertConn_actor : (w.insertConn h conn).actor =
    { w.actor with conns := w.actor.conns.insert h conn } := by
  rw [World.insertConn]
  cases w.actor.conns.lookup h with
  | none => rfl
  | some old => simp only [dropConn_actor]

theorem insertConn_log : (w.insertConn h conn).log = w.log := by
  rw [World.insertConn]
  cases w.actor.conns.lookup h with
  | none => rfl
  | some old => exact dropConn_log w old

theorem insertConn_connects : (w.insertConn h conn).connects = w.connects := by
  rw [World.insertConn]
  cases w.actor.conns.lookup h with
  | none => rfl
  | some old => exact dropConn_connects w old

theorem insertConn_reply (k : ConnId) :
    ((w.insertConn h conn).replies k).value = (w.replies k).value ∧
      ((w.insertConn h conn).replies k).rx = (w.replies k).rx := by
  rw [World.insertConn]
  cases w.actor.conns.lookup h with
  | none => exact ⟨rfl, rfl⟩
  | some old => exact dropConn_reply w old k

/-- The ends of the other connections stay. -/
theorem insertConn_other {k : ConnId} (hk : ∀ old, w.entry h = some old → old.fromNet ≠ k) :
    (w.insertConn h conn).chans k = w.chans k ∧
      (w.insertConn h conn).replies k = w.replies k := by
  rw [World.insertConn]
  cases hold : w.actor.conns.lookup h with
  | none => exact ⟨rfl, rfl⟩
  | some old =>
      have hne : k ≠ old.fromNet := Ne.symm (hk old hold)
      refine ⟨?_, dropConn_replies_ne w old hne⟩
      show (w.dropConn old).chans k = _
      rw [dropConn_chans, Function.update_of_ne hne]

end

theorem Oneshot.send_error {α : Type} {o o' : Oneshot α} {e : String}
    (h : o' = o.send (.error e)) :
    o'.value = none ∨ ∃ e', o'.value = some (.error e') := by
  rw [h, Oneshot.send]
  split
  · exact .inr ⟨e, rfl⟩
  · exact .inl rfl

theorem handleConnect_cases {w w' : World D} {remote : SocketAddr} {c : ConnId}
    (h : w.handleConnect remote c = some w') :
    (w.Accepts remote ∧ Inserted w w' remote c) ∨ (¬ w.Accepts remote ∧ Rejected w w' c) := by
  rw [World.handleConnect] at h
  split at h
  · cases h
  · next sock hsock =>
      split at h
      · next iface sock' hconnect =>
          rw [Option.some.injEq] at h
          subst h
          refine .inl ⟨⟨sock, iface, sock', hsock, hconnect⟩, ?_⟩
          constructor
          · rw [World.entry, insertConn_actor]
            exact AList.lookup_insert _
          · intro k hk
            rw [World.entry, insertConn_actor]
            exact AList.lookup_insert_ne hk
          · exact insertConn_log ..
          · rw [insertConn_actor]; rfl
          · exact insertConn_connects ..
          · intro k hk
            refine (insertConn_other _ _ _ ?_).1
            exact hk
          · intro k hk
            refine (insertConn_other _ _ _ ?_).2
            exact hk
          · exact fun k => (insertConn_reply _ _ _ k).1
          · exact fun k => (insertConn_reply _ _ _ k).2
      · next iface e hconnect =>
          split at h
          · cases h
          · rw [Option.some.injEq] at h
            subst h
            have hself : Function.update w.replies c
                ((w.replies c).send (.error ("connect: " ++ e))) c = _ :=
              Function.update_self ..
            refine .inr ⟨?_, rfl, rfl, rfl, rfl, fun k hk => Function.update_of_ne hk ..,
              Oneshot.send_error hself, fun k hk => Function.update_of_ne hk ..,
              update_part Oneshot.rx rfl⟩
            rintro ⟨sock₂, iface₂, sock', hsock₂, hconnect₂⟩
            rw [World.nextSlot, hsock, Option.some.injEq] at hsock₂
            subst hsock₂
            cases (Prod.mk.inj (hconnect.symm.trans hconnect₂)).2

/-- A connect that smoltcp takes does not panic. -/
theorem World.Accepts.handleConnect_ne {w : World D} {remote : SocketAddr}
    (h : w.Accepts remote) (c : ConnId) : w.handleConnect remote c ≠ none := by
  obtain ⟨sock, iface, sock', hsock, hconnect⟩ := h
  rw [World.nextSlot] at hsock
  intro hnone
  rw [World.handleConnect] at hnone
  simp only [hsock] at hnone
  have hport : w.actor.nextEphemeralPort.1 = w.actor.nextPort := rfl
  rw [hport, hconnect] at hnone
  cases hnone

/-! ### Any command -/

/-- The handle a `Send` or a `Close` carries, and the endpoint that issued it. -/
def Cmd.target : Cmd → Option (Handle × ConnId)
  | .send h _ o | .close h o => some (h, o)
  | _ => none

/-- The number of the connect that a command is. -/
def Cmd.connId : Cmd → Option ConnId
  | .connect _ c => some c
  | _ => none

/-- What a command leaves; one that finds no entry does nothing. -/
inductive Handled (w w' : World D) : Cmd → Prop
  | untouched (cmd : Cmd) : Untouched w w' →
      (∀ h o, cmd.target = some (h, o) → w.entry h = none) → Handled w w' cmd
  | inserted {remote : SocketAddr} {c : ConnId} : w.Accepts remote → Inserted w w' remote c →
      Handled w w' (.connect remote c)
  | rejected {remote : SocketAddr} {c : ConnId} : ¬ w.Accepts remote → Rejected w w' c →
      Handled w w' (.connect remote c)
  | sent {h : Handle} {data : List UInt8} {o : ConnId} {conn : Conn} : w.entry h = some conn →
      Wrote w w' h { conn with outBuf := conn.outBuf ++ data } (.sent conn.fromNet o data) →
      Handled w w' (.send h data o)
  | closed {h : Handle} {o : ConnId} {conn : Conn} : w.entry h = some conn →
      Wrote w w' h { conn with closing := true } (.closed conn.fromNet o) →
      Handled w w' (.close h o)

theorem handleCmd_handled {w w' : World D} {cmd : Cmd} (h : w.handleCmd cmd = some w') :
    Handled w w' cmd := by
  cases cmd with
  | inbound pkt =>
      rw [World.handleCmd, Option.some.injEq] at h
      exact .untouched _ (h ▸ handleInbound_untouched w pkt) fun _ _ h => nomatch h
  | resolve name r =>
      exact .untouched _ (handleResolve_untouched h) fun _ _ h => nomatch h
  | connect remote c =>
      rcases handleConnect_cases h with ⟨haccepts, hi⟩ | ⟨hrefuses, hr⟩
      · exact .inserted haccepts hi
      · exact .rejected hrefuses hr
  | send k data o =>
      rw [World.handleCmd, Option.some.injEq, World.handleSend] at h
      subst h
      cases hconn : w.actor.conns.lookup k with
      | none =>
          refine .untouched _ (.refl w) fun k' o' htarget => ?_
          cases htarget
          exact hconn
      | some conn => exact .sent hconn (setConn_wrote w k _ _)
  | close k o =>
      rw [World.handleCmd, Option.some.injEq, World.handleClose] at h
      subst h
      cases hconn : w.actor.conns.lookup k with
      | none =>
          refine .untouched _ (.refl w) fun k' o' htarget => ?_
          cases htarget
          exact hconn
      | some conn => exact .closed hconn (setConn_wrote w k _ _)

/-- Only a connect that smoltcp takes adds an entry. -/
theorem Handled.retains {w w' : World D} {cmd : Cmd} (h : Handled w w' cmd) : Retains w w' ∨
    ∃ remote c, cmd = .connect remote c ∧ w.Accepts remote ∧ Inserted w w' remote c := by
  cases h with
  | untouched _ hw _ => exact .inl (.of_eq hw.entry)
  | inserted haccepts hi => exact .inr ⟨_, _, rfl, haccepts, hi⟩
  | rejected _ hr => exact .inl (.of_eq hr.entry)
  | sent hconn hw => exact .inl (hw.retains hconn ⟨rfl, rfl, rfl, rfl, id⟩)
  | closed hconn hw => exact .inl (hw.retains hconn ⟨rfl, rfl, rfl, rfl, fun _ => rfl⟩)

/-- No command is answered with a handle. -/
theorem Handled.value_ok {w w' : World D} {cmd : Cmd} (h : Handled w w' cmd) {c : ConnId}
    {k : Handle} (hvalue : (w'.replies c).value = some (.ok k)) :
    (w.replies c).value = some (.ok k) := by
  cases h with
  | untouched _ hw _ => exact hw.replies ▸ hvalue
  | inserted _ hi => exact hi.value c ▸ hvalue
  | @rejected _ c' _ hr =>
      by_cases hc : c = c'
      · subst hc
        rcases hr.value_self with hnone | ⟨e, herror⟩
        · rw [hnone] at hvalue; cases hvalue
        · rw [herror] at hvalue; cases hvalue
      · exact hr.reply_ne c hc ▸ hvalue
  | sent _ hw | closed _ hw => exact hw.replies ▸ hvalue

end

end WarpProxy.Netstack
