/-
# `WarpProxy.Netstack.Inbound` — the inbound byte stream

Bytes from the remote pass through four buffers: the receive buffer of the socket,
the chunks in the channel, `read_buf` of the `TcpConn`, and what the application
has been given.  `takenFrom` reads off the log what left the first of them, and
splits the way in two:

    taken, then the receive buffer           is what was received   (`received`)
    read, then unread, then the chunks       is what was taken      (`Flows`)

What a socket receives and what an application reads are recorded beside the
system (`Traced`); the system itself runs as it did.
-/
import WarpProxy.Netstack.Ends
import WarpProxy.Netstack.Sockets

namespace WarpProxy.Netstack

open Transition (guarded)

/-- The bytes that left the socket of `c` for its channel. -/
def takenFrom (c : ConnId) (log : List Event) : List UInt8 :=
  log.flatMap fun
    | .taken k data => if k = c then data else []
    | _ => []

theorem takenFrom_other {c : ConnId} {es : List Event} (h : ∀ e ∈ es, e.conn ≠ c) :
    takenFrom c es = [] := by
  refine List.flatMap_eq_nil_iff.mpr fun e he => ?_
  have hne := h e he
  cases e with
  | taken k data => exact if_neg hne
  | _ => rfl

theorem takenFrom_visitsOnly : VisitsOnly takenFrom where
  append _ _ _ := List.flatMap_append
  other := takenFrom_other
  sent _ _ _ _ := rfl
  closed _ _ _ := rfl
  replied _ _ _ := rfl

theorem takenFrom_append (c : ConnId) (log es : List Event) :
    takenFrom c (log ++ es) = takenFrom c log ++ takenFrom c es :=
  takenFrom_visitsOnly.append c log es

section
variable {D : Deps}

theorem Visit.events_taken (v : Visit D) (c : ConnId) : takenFrom c (v.events c) = v.taken := by
  rw [Visit.events]
  cases v.outcome <;> cases v.closes <;> cases v.remove <;> simp [takenFrom]

/-! ## The receive buffer of a socket -/

/-- TIME-WAIT has run out: smoltcp closes the socket and clears its buffers. -/
def Deps.Expired (D : Deps) (sock sock' : D.Tcp) : Prop :=
  D.state sock = .timeWait ∧ D.state sock' = .closed

instance (sock sock' : D.Tcp) : Decidable (D.Expired sock sock') :=
  inferInstanceAs (Decidable (_ ∧ _))

/-- `recvBuf` is the receive buffer: a poll appends to it, `recv_slice` takes its front, and
nothing else changes it. -/
structure Deps.RecvLaws (D : Deps) (recvBuf : D.Tcp → List UInt8) : Prop where
  connected : ∀ iface rx tx remote port iface' sock,
    D.connect iface (D.newTcp rx tx) remote port = (iface', .ok sock) → recvBuf sock = []
  sendSlice : ∀ sock data, recvBuf (D.sendSlice sock data).2 = recvBuf sock
  recvSlice : ∀ sock size data sock', D.recvSlice sock size = (some data, sock') →
    data.1 ++ recvBuf sock' = recvBuf sock
  recvFailed : ∀ sock size sock', D.recvSlice sock size = (none, sock') →
    recvBuf sock' = recvBuf sock
  close : ∀ sock, recvBuf (D.close sock) = recvBuf sock
  polled : ∀ now iface device s h sock sock', D.tcp s h = some sock →
    D.tcp (D.poll now iface device s).2.2 h = some sock' →
    D.Expired sock sock' ∨ recvBuf sock <+: recvBuf sock'
  /-- a closed socket is not opened by a poll -/
  closed : ∀ now iface device s h sock sock', D.tcp s h = some sock →
    D.tcp (D.poll now iface device s).2.2 h = some sock' →
    D.state sock = .closed → D.state sock' = .closed

section
variable {recvBuf : D.Tcp → List UInt8}

theorem flush_recvBuf (hR : D.RecvLaws recvBuf) (seams : List Nat) (sock : D.Tcp)
    (outBuf : List UInt8) : recvBuf (flush seams sock outBuf).sock = recvBuf sock := by
  induction seams, sock, outBuf using flush.induct with
  | case1 seams sock outBuf h head _ sock' hs | case3 seams sock outBuf h head sock' hs =>
      rw [flush, if_pos h]
      simp only [head] at hs
      simp only [hs]
      rw [← hR.sendSlice sock, hs]
  | case2 seams sock outBuf h head n _ sock' hs ih =>
      rw [flush, if_pos h]
      simp only [head] at hs
      simp only [hs, ih]
      rw [← hR.sendSlice sock, hs]
  | case4 seams sock outBuf h => rw [flush, if_neg h]

/-- What the loop takes is the front of the receive buffer. -/
theorem pump_recvBuf (hR : D.RecvLaws recvBuf) (sock : D.Tcp) (chan : Chan) :
    (pump sock chan).taken ++ recvBuf (pump sock chan).sock = recvBuf sock := by
  induction sock, chan using pump.induct with
  | case1 sock chan h hroom _ sock' hs =>
      rw [pump, if_pos h, dif_pos hroom]
      simp only [hs]
      exact hR.recvSlice _ _ _ _ hs
  | case2 sock chan h hroom b bs _ sock' hs ih =>
      rw [pump, if_pos h, dif_pos hroom]
      simp only [hs, List.append_assoc, ih]
      exact hR.recvSlice _ _ _ _ hs
  | case3 sock chan h hroom sock' hs =>
      rw [pump, if_pos h, dif_pos hroom]
      simp only [hs]
      exact hR.recvFailed _ _ _ hs
  | case4 sock chan h hroom =>
      rw [pump, if_pos h, dif_neg hroom]
      rfl
  | case5 sock chan h =>
      rw [pump, if_neg h]
      rfl

theorem visit_recvBuf (hR : D.RecvLaws recvBuf) (h : Handle) (seams : List Nat) (sock : D.Tcp)
    (conn : Conn) (chan : Chan) : (visit D h seams sock conn chan).taken ++
      recvBuf (visit D h seams sock conn chan).sock = recvBuf sock := by
  have hpump := pump_recvBuf hR (flush seams sock conn.outBuf).sock chan
  rw [flush_recvBuf hR] at hpump
  refine Eq.trans (congrArg _ ?_) hpump
  simp only [visit]
  split
  · exact hR.close _
  · rfl

end

/-! ## The channel -/

/-- At most 64 chunks are queued, none of them empty or over 8 KiB. -/
structure Chan.Bounded (ch : Chan) : Prop where
  length : ch.queue.length ≤ chanDepth
  chunks : ∀ chunk ∈ ch.queue, chunk ≠ [] ∧ chunk.length ≤ recvChunk

/-- Without a permit nothing leaves the socket. -/
theorem pump_full (sock : D.Tcp) {chan : Chan} (h : chan.reservable = false) :
    pump sock chan = ⟨sock, chan, []⟩ := by
  rw [pump, h]
  simp only [Bool.false_eq_true, dite_false, ite_self]

theorem pump_bounded (sock : D.Tcp) (chan : Chan) (hb : chan.Bounded) :
    (pump sock chan).chan.Bounded := by
  induction sock, chan using pump.induct with
  | case1 sock chan h hroom _ sock' hs | case3 sock chan h hroom sock' hs =>
      rw [pump, if_pos h, dif_pos hroom]
      simp only [hs]
      exact hb
  | case2 sock chan h hroom b bs hlen sock' hs ih =>
      rw [pump, if_pos h, dif_pos hroom]
      simp only [hs]
      refine ih ⟨?_, fun chunk hchunk => ?_⟩
      · simp only [Chan.reservable, Bool.and_eq_true, decide_eq_true_eq] at hroom
        rw [List.length_append]
        exact hroom.2
      · rcases List.mem_append.mp hchunk with hchunk | hchunk
        · exact hb.chunks chunk hchunk
        · rw [List.mem_singleton.mp hchunk]
          exact ⟨List.cons_ne_nil b bs, hlen⟩
  | case4 sock chan h hroom =>
      rw [pump, if_pos h, dif_neg hroom]
      exact hb
  | case5 sock chan h =>
      rw [pump, if_neg h]
      exact hb

theorem visit_bounded (h : Handle) (seams : List Nat) (sock : D.Tcp) (conn : Conn) {chan : Chan}
    (hb : chan.Bounded) : (visit D h seams sock conn chan).chan.Bounded :=
  pump_bounded _ chan hb

theorem visit_full (h : Handle) (seams : List Nat) (sock : D.Tcp) (conn : Conn) {chan : Chan}
    (hfull : chan.reservable = false) : (visit D h seams sock conn chan).taken = [] ∧
      (visit D h seams sock conn chan).chan = chan := by
  simp only [visit, pump_full _ hfull, and_self]

theorem visit_queue (h : Handle) (seams : List Nat) (sock : D.Tcp) (conn : Conn) (chan : Chan) :
    (visit D h seams sock conn chan).chan.queue.flatten =
      chan.queue.flatten ++ (visit D h seams sock conn chan).taken :=
  (pump_chan ..).1

/-- A command puts nothing into a channel and takes nothing out. -/
theorem handleCmd_queue {w w' : World D} {cmd : Cmd} (h : w.handleCmd cmd = some w')
    (c : ConnId) : (w'.chans c).queue = (w.chans c).queue := by
  have hdrop : ∀ (w : World D) (k : ConnId),
      ((w.dropFromNet k).chans c).queue = (w.chans c).queue := by
    intro w k
    refine update_part Chan.queue ?_ c
    rfl
  cases cmd with
  | inbound pkt =>
      cases h
      rfl
  | resolve name r => rw [(handleResolve_untouched h).chans]
  | send k data o =>
      cases h
      rw [World.handleSend]
      split <;> rfl
  | close k o =>
      cases h
      rw [World.handleClose]
      split <;> rfl
  | connect remote k =>
      rw [World.handleCmd, World.handleConnect] at h
      split at h
      · cases h
      · split at h
        · cases h
          rw [World.insertConn]
          split
          · next old _ =>
              rw [dropConn_chans]
              refine update_part Chan.queue ?_ c
              rfl
          · rfl
        · split at h
          · cases h
          · cases h
            exact hdrop _ k

/-! ## The endpoint -/

/-- The bytes a read gave. -/
def ReadPoll.bytes : ReadPoll → List UInt8
  | .ready bytes => bytes
  | _ => []

/-- What a read has left behind in `read_buf`. -/
def TcpConn.unread (conn : TcpConn) : List UInt8 := conn.readBuf.drop conn.readPos

theorem copy_unread (conn : TcpConn) (n : Nat) :
    (conn.copy n).1 ++ (conn.copy n).2.unread = conn.unread := by
  simp only [TcpConn.copy, TcpConn.unread]
  rw [← List.drop_drop, List.take_append_drop]

theorem recv_bytes (ch : Chan) :
    ch.recv.1.bytes ++ ch.recv.2.queue.flatten = ch.queue.flatten := by
  obtain ⟨queue, tx, rx⟩ := ch
  cases queue with
  | nil => cases tx <;> rfl
  | cons v queue => rfl

/-- What `poll_read` copies is the front of what is unread and queued. -/
theorem pollRead_bytes (conn : TcpConn) (ch : Chan) (n : Nat) :
    (conn.pollRead ch n).1.bytes ++ ((conn.pollRead ch n).2.1.unread ++
      (conn.pollRead ch n).2.2.queue.flatten) = conn.unread ++ ch.queue.flatten := by
  have hrecv := recv_bytes ch
  rw [TcpConn.pollRead]
  split
  · next hall =>
      have hnone : conn.unread = [] := List.drop_eq_nil_of_le hall
      rw [hnone, List.nil_append, ← hrecv]
      split
      · next v ch' heq =>
          rw [heq]
          show ({ conn with readBuf := v, readPos := 0 }.copy n).1 ++ _ = _
          rw [← List.append_assoc, copy_unread]
          rfl
      · next ch' heq => simp only [heq, hnone]; rfl
      · next ch' heq => simp only [heq, hnone]; rfl
  · show (conn.copy n).1 ++ ((conn.copy n).2.unread ++ _) = _
    rw [← List.append_assoc, copy_unread]

/-- A read into a buffer with room returns without a byte only at the end. -/
theorem pollRead_nothing {conn : TcpConn} {ch : Chan} {n : Nat} (hn : 0 < n) (hb : ch.Bounded)
    (h : (conn.pollRead ch n).1 = .eof ∨ (conn.pollRead ch n).1 = .ready []) :
    ch.tx = false ∧ ch.queue = [] ∧ conn.unread = [] := by
  obtain ⟨queue, tx, rx⟩ := ch
  have hcopy : ∀ v pos, pos < v.length →
      ({ conn with readBuf := v, readPos := pos }.copy n).1 ≠ [] := by
    intro v pos hpos hnil
    have hlen := congrArg List.length hnil
    simp only [TcpConn.copy, List.length_take, List.length_drop, List.length_nil] at hlen
    omega
  rw [TcpConn.pollRead] at h
  split at h
  · next hall =>
      have hnone : conn.unread = [] := List.drop_eq_nil_of_le hall
      cases queue with
      | nil =>
          cases tx with
          | false => exact ⟨rfl, rfl, hnone⟩
          | true => rcases h with h | h <;> cases h
      | cons v queue =>
          have hv : v ≠ [] := (hb.chunks v List.mem_cons_self).1
          rcases h with h | h
          · cases h
          · exact absurd (ReadPoll.ready.inj h) (hcopy v 0 (List.length_pos_of_ne_nil hv))
  · next hsome =>
      rcases h with h | h
      · cases h
      · exact absurd (ReadPoll.ready.inj h)
          (hcopy conn.readBuf conn.readPos (Nat.lt_of_not_le hsome))

theorem Chan.Bounded.suffix {ch ch' : Chan} (hb : ch.Bounded) (h : ch'.queue <:+ ch.queue) :
    ch'.Bounded :=
  ⟨Nat.le_trans h.length_le hb.length, fun chunk hchunk => hb.chunks chunk (h.subset hchunk)⟩

theorem recv_suffix (ch : Chan) : ch.recv.2.queue <:+ ch.queue := by
  obtain ⟨queue, tx, rx⟩ := ch
  cases queue with
  | nil => cases tx <;> exact List.suffix_refl _
  | cons v queue => exact List.suffix_cons v queue

theorem pollRead_suffix (conn : TcpConn) (ch : Chan) (n : Nat) :
    (conn.pollRead ch n).2.2.queue <:+ ch.queue := by
  have hrecv := recv_suffix ch
  rw [TcpConn.pollRead]
  split
  · split
    · next heq => rw [heq] at hrecv; exact hrecv
    · next heq => rw [heq] at hrecv; exact hrecv
    · next heq => rw [heq] at hrecv; exact hrecv
  · exact List.suffix_refl _

/-! ## What is still to be read -/

def Endpoint.unread : Endpoint → List UInt8
  | .conn tcp => tcp.unread
  | _ => []

/-- The receiver of the channel is there. -/
def Endpoint.Reads : Endpoint → Prop
  | .awaiting | .conn _ | .split true _ => True
  | _ => False

/-- What the reader of `c` has ahead of it. -/
def System.ahead (s : System D) (c : ConnId) : List UInt8 :=
  (s.endpoints c).unread ++ (s.world.chans c).queue.flatten

/-- What a step gives the application of `c`. -/
def System.readBy (s : System D) (c : ConnId) : Label → List UInt8
  | .read k => if k = c then (s.world.chans c).recv.1.bytes else []
  | .pollRead k n =>
      match s.endpoints c with
      | .conn tcp => if k = c then (tcp.pollRead (s.world.chans c) n).1.bytes else []
      | _ => []
  | _ => []

/-- What a reader holds that `read_buf` has been given; after a split, `lost` of it. -/
def Endpoint.held (lost : List UInt8) : Endpoint → List UInt8
  | .conn tcp => tcp.unread
  | .split _ _ => lost
  | _ => []

/-- What a split throws away with `read_buf`, or `lost` as it was. -/
def System.lostBy (s : System D) (c : ConnId) (l : Label) (lost : List UInt8) : List UInt8 :=
  match l with
  | .split k => if k = c then (s.endpoints c).unread else lost
  | _ => lost

/-- A read past `read_buf`, or a split, while there are unread bytes would skip them. -/
def InOrder (c : ConnId) (s : System D) (l : Label) : Prop :=
  l = .read c ∨ l = .split c → (s.endpoints c).unread = []

section
variable {s t : System D} {c : ConnId}

theorem dropChanRx_queue (w : World D) (k c : ConnId) :
    ((w.dropChanRx k).chans c).queue = (w.chans c).queue := by
  refine update_part Chan.queue ?_ c
  rfl

/-- An endpoint that gains no receiver, and holds what it held. -/
theorem held_endpoint {l : Label} {k : ConnId} {e : Endpoint} {lost : List UInt8}
    (hl : s.readBy c l = []) (hlost : s.lostBy c l lost = lost)
    (hends : t.endpoints = Function.update s.endpoints k e)
    (he : k = c → e.Reads → (s.endpoints c).Reads ∧ e.held lost = (s.endpoints c).held lost)
    (hqueue : (t.world.chans c).queue = (s.world.chans c).queue) (hr : (t.endpoints c).Reads) :
    (s.endpoints c).Reads ∧ s.readBy c l ++ ((t.endpoints c).held (s.lostBy c l lost) ++
      (t.world.chans c).queue.flatten) =
        (s.endpoints c).held lost ++ (s.world.chans c).queue.flatten := by
  rw [hl, hlost, List.nil_append, hqueue]
  by_cases hk : k = c
  · subst hk
    rw [hends, Function.update_self] at hr ⊢
    exact ⟨(he rfl hr).1, by rw [(he rfl hr).2]⟩
  · rw [hends, Function.update_of_ne (Ne.symm hk)] at hr ⊢
    exact ⟨hr, rfl⟩

/-- **One step of the async side**: what it gives the reader is the front of what was held and
queued. -/
theorem stepAsync_held {l : Label} (lost : List UInt8) (h : s.stepAsync l = some t)
    (hl : l = .read c → (s.world.chans c).queue ≠ [] → (s.endpoints c).held lost = [])
    (hnew : c ≠ s.nextConn) (hr : (t.endpoints c).Reads) :
    (s.endpoints c).Reads ∧ s.readBy c l ++ ((t.endpoints c).held (s.lostBy c l lost) ++
      (t.world.chans c).queue.flatten) =
        (s.endpoints c).held lost ++ (s.world.chans c).queue.flatten := by
  cases AsyncStep.of_eq h with
  | inbound | resolve | resolved | send | close => exact ⟨hr, rfl⟩
  | connect remote =>
      refine held_endpoint (k := s.nextConn) rfl rfl rfl (fun hk => absurd hk.symm hnew) ?_ hr
      show (Function.update s.world.chans _ _ c).queue = _
      rw [Function.update_of_ne hnew]
  | @connected k _ hawait =>
      refine held_endpoint (k := k) rfl rfl rfl (fun hk _ => ?_) rfl hr
      rw [← hk, hawait]
      exact ⟨trivial, rfl⟩
  | @failed k | @cancel k | @dropConn k | @dropReader k =>
      exact held_endpoint rfl rfl rfl (fun _ he => he.elim) (dropChanRx_queue _ k c) hr
  | @split k _ hk =>
      by_cases hkc : k = c
      · subst hkc
        refine ⟨by rw [hk]; trivial, ?_⟩
        simp only [System.readBy, System.lostBy, if_true, System.setEndpoint,
          Function.update_self, Endpoint.held, hk, Endpoint.unread, List.nil_append]
      · exact held_endpoint (k := k) rfl (if_neg hkc) rfl (fun hk => absurd hk hkc) rfl hr
  | @dropWriter k reader _ hk =>
      refine held_endpoint (k := k) rfl rfl rfl (fun hkc he => ?_) rfl hr
      rw [← hkc, hk]
      cases reader with
      | true => exact ⟨trivial, rfl⟩
      | false => exact he.elim
  | read k =>
      refine ⟨hr, ?_⟩
      rw [System.readBy]
      show _ ++ (_ ++ (Function.update s.world.chans k _ c).queue.flatten) = _
      split
      · next hk =>
          subst hk
          have hrecv := recv_bytes (s.world.chans k)
          rw [Function.update_self]
          by_cases hq : (s.world.chans k).queue = []
          · -- nothing is queued, so nothing is given
            rw [hq, List.flatten_nil, List.append_eq_nil_iff] at hrecv
            rw [hrecv.1, hrecv.2, hq]
            rfl
          · have hheld : (s.endpoints k).held lost = [] := hl rfl hq
            show _ ++ ((s.endpoints k).held lost ++ _) = _
            rw [hheld]
            exact hrecv
      · next hk => rw [Function.update_of_ne (Ne.symm hk)]; rfl
  | @pollRead k tcp n hk =>
      by_cases hkc : k = c
      · subst hkc
        refine ⟨by rw [hk]; trivial, ?_⟩
        simp only [System.readBy, hk, if_true, System.setEndpoint, Function.update_self,
          Endpoint.held]
        exact pollRead_bytes tcp _ n
      · have hgives : s.readBy c (.pollRead k n) = [] := by
          rw [System.readBy]
          split
          · exact if_neg hkc
          · rfl
        refine held_endpoint (k := k) hgives rfl rfl (fun hk => absurd hk hkc) ?_ hr
        show (Function.update s.world.chans _ _ c).queue = _
        rw [Function.update_of_ne (Ne.symm hkc)]

theorem held_nil (e : Endpoint) : e.held [] = e.unread := by
  cases e <;> rfl

/-- In order, nothing is passed over and nothing is lost. -/
theorem stepAsync_ahead {l : Label} (h : s.stepAsync l = some t) (hl : InOrder c s l)
    (hnew : c ≠ s.nextConn) (hr : (t.endpoints c).Reads) :
    (s.endpoints c).Reads ∧ s.readBy c l ++ t.ahead c = s.ahead c := by
  have hlost : s.lostBy c l [] = [] := by
    cases l with
    | split k =>
        rw [System.lostBy]
        split
        · next hk => exact hl (.inr (hk ▸ rfl))
        · rfl
    | _ => rfl
  have hstep := stepAsync_held [] h (fun heq _ => (held_nil _).trans (hl (.inl heq))) hnew hr
  rw [hlost, held_nil, held_nil] at hstep
  exact hstep

/-- The async side only takes chunks off. -/
theorem stepAsync_suffix {l : Label} (h : s.stepAsync l = some t) (c : ConnId) :
    (t.world.chans c).queue <:+ (s.world.chans c).queue := by
  have hupdate : ∀ (k : ConnId) (ch : Chan), ch.queue <:+ (s.world.chans k).queue →
      (Function.update s.world.chans k ch c).queue <:+ (s.world.chans c).queue := by
    intro k ch hch
    rw [Function.update_apply]
    split
    · next hc => exact hc ▸ hch
    · exact List.suffix_refl _
  cases AsyncStep.of_eq h with
  | inbound | resolve | resolved | connected | send | close | split | dropWriter =>
      exact List.suffix_refl _
  | connect => exact hupdate s.nextConn .new (List.nil_suffix)
  | @failed k | @cancel k | @dropConn k | @dropReader k => exact hupdate k _ (List.suffix_refl _)
  | read k => exact hupdate k _ (recv_suffix _)
  | @pollRead k tcp n => exact hupdate k _ (pollRead_suffix tcp _ n)

/-- A step of the actor, as far as the channels go. -/
theorem stepActor_bounded {l : Label} (h : s.stepActor l = some t)
    (hb : ∀ c, (s.world.chans c).Bounded) (c : ConnId) : (t.world.chans c).Bounded := by
  rcases (stepActor_cases h).2.2 with
    ⟨hsame, -⟩ | ⟨order, -, -, hpass⟩ | ⟨cmd, -, -, ⟨-, hsame⟩ | hcmd⟩
  · exact hsame.chans ▸ hb c
  · refine serviceSockets_invariant (fun w => ∀ c, (w.chans c).Bounded) order ?_ hb hpass c
    intro w k seams w' _ hb hturn c
    obtain ⟨sock, conn, -, -, hs⟩ := serviceSocket_cases hturn
    by_cases hc : c = conn.fromNet
    · have hvisit := visit_bounded k seams sock conn (hb conn.fromNet)
      rw [hc, ← visit_fromNet k seams sock conn (w.chans conn.fromNet), hs.chan_self]
      exact ⟨hvisit.length, hvisit.chunks⟩
    · rw [hs.chan_ne c hc]
      exact hb c
  · exact hsame ▸ hb c
  · exact (hb c).suffix ((handleCmd_queue hcmd c).symm ▸ List.suffix_refl _)

/-- Every channel is bounded, in every reachable state. -/
theorem Reachable.bounded (h : Reachable s) : ∀ c, (s.world.chans c).Bounded := by
  refine Transition.Reachable.invariant (fun s : System D => ∀ c, (s.world.chans c).Bounded) h
    ?_ fun s l t hb hstep c => ?_
  · rintro s ⟨mtu, v4, v6, rfl⟩ c
    exact ⟨Nat.zero_le _, fun chunk hchunk => absurd hchunk List.not_mem_nil⟩
  · rcases step_cases hstep with hstep | hstep
    · exact stepActor_bounded hstep hb c
    · exact (hb c).suffix (stepAsync_suffix hstep c)

end

/-! ## From the channel to the application -/

/-- A connect is queued under the number, or an entry has it. -/
def System.Attached (s : System D) (c : ConnId) : Prop :=
  c ∈ s.queue.filterMap Cmd.connId ∨ ∃ h conn, s.world.entry h = some conn ∧ conn.fromNet = c

/-- The bytes `r` read for `c`, then those ahead of its reader, are those taken. -/
structure Flows (c : ConnId) (r : List UInt8) (s : System D) : Prop where
  unused : s.nextConn ≤ c → r = []
  flow : s.Attached c → (s.endpoints c).Reads → r ++ s.ahead c = takenFrom c s.world.log

section
variable {s t : System D} {c : ConnId} {r : List UInt8}

theorem stepActor_readBy {l : Label} (h : s.stepActor l = some t) (c : ConnId) :
    s.readBy c l = [] := by
  cases l with
  | read k | pollRead k n => cases h
  | _ => rfl

/-- What the actor takes for `c` it puts into the channel. -/
theorem stepActor_takes {l : Label} (h : s.stepActor l = some t) (c : ConnId) :
    ∃ more, takenFrom c t.world.log = takenFrom c s.world.log ++ more ∧
      (t.world.chans c).queue.flatten = (s.world.chans c).queue.flatten ++ more := by
  rcases (stepActor_cases h).2.2 with
    ⟨hsame, -⟩ | ⟨order, -, -, hpass⟩ | ⟨cmd, -, -, ⟨-, hw⟩ | hcmd⟩
  · exact ⟨[], by rw [hsame.log, List.append_nil], by rw [hsame.chans, List.append_nil]⟩
  · refine serviceSockets_invariant (fun w => ∃ more,
      takenFrom c w.log = takenFrom c s.world.log ++ more ∧
        (w.chans c).queue.flatten = (s.world.chans c).queue.flatten ++ more) order ?_
      ⟨[], (List.append_nil _).symm, (List.append_nil _).symm⟩ hpass
    rintro w k seams w' - ⟨more, htaken, hqueue⟩ hturn
    obtain ⟨sock, conn, -, -, hs⟩ := serviceSocket_cases hturn
    have hlog := hs.log
    simp only [visit_fromNet] at hlog
    by_cases hc : conn.fromNet = c
    · have hself := hs.chan_self
      simp only [visit_fromNet] at hself
      refine ⟨more ++ (visit D k seams sock conn (w.chans conn.fromNet)).taken, ?_, ?_⟩
      · rw [hlog, takenFrom_append, htaken, ← hc, Visit.events_taken, List.append_assoc]
      · rw [← hc, hself, visit_queue, hc, hqueue, List.append_assoc]
    · refine ⟨more, ?_, ?_⟩
      · have hnothing : takenFrom c ((visit D k seams sock conn
            (w.chans conn.fromNet)).events conn.fromNet) = [] :=
          takenFrom_other fun e he heq => hc ((Visit.events_conn _ _ e he).symm.trans heq)
        rw [hlog, takenFrom_append, hnothing, List.append_nil, htaken]
      · rw [hs.chan_ne c (Ne.symm hc), hqueue]
  · exact ⟨[], by rw [hw, List.append_nil], by rw [hw, List.append_nil]⟩
  · have hhandled := handleCmd_handled hcmd
    exact ⟨[], by rw [takenFrom_visitsOnly.handled hhandled, List.append_nil],
      by rw [handleCmd_queue hcmd, List.append_nil]⟩

/-- The connection of a new entry was queued. -/
theorem Handled.attached {cmd : Cmd} (hq : s.queue = cmd :: t.queue)
    (h : Handled s.world t.world cmd) (hatt : t.Attached c) : s.Attached c := by
  have hsplit : s.queue.filterMap Cmd.connId =
      [cmd].filterMap Cmd.connId ++ t.queue.filterMap Cmd.connId := by
    rw [hq, ← List.singleton_append, List.filterMap_append]
  rcases hatt with hmem | ⟨k, conn, hentry, hfrom⟩
  · exact .inl (hsplit ▸ List.mem_append_right _ hmem)
  · have hold : (∃ old, s.world.entry k = some old ∧ conn.Alike old) → s.Attached c :=
      fun ⟨old, hold, halike⟩ => .inr ⟨k, old, hold, halike.fromNet ▸ hfrom⟩
    rcases h.retains with hretains | ⟨remote, c', rfl, -, hi⟩
    · exact hold (hretains k conn hentry)
    · rcases hi.entry_cases hentry with ⟨-, rfl⟩ | ⟨-, hold'⟩
      · rw [show c' = c from hfrom] at hsplit
        exact .inl (hsplit ▸ List.mem_append_left _ (List.mem_singleton_self c))
      · exact hold ⟨conn, hold', ⟨rfl, rfl, rfl, rfl, id⟩⟩

/-- The actor attaches only what was queued. -/
theorem stepActor_attached {l : Label} (h : s.stepActor l = some t) (hatt : t.Attached c) :
    s.Attached c := by
  rcases (stepActor_cases h).2.2 with
    ⟨hsame, hq⟩ | ⟨order, hq, -, hpass⟩ | ⟨cmd, -, hq, ⟨-, hw⟩ | hcmd⟩
  · rw [System.Attached, hq, hsame.entry] at hatt
    exact hatt
  · have hretains : Retains s.world t.world := serviceSockets_retains hpass
    rw [System.Attached, hq] at hatt
    refine hatt.imp_right ?_
    rintro ⟨k, conn, hentry, hfrom⟩
    obtain ⟨old, hold, halike⟩ := hretains k conn hentry
    exact ⟨k, old, hold, halike.fromNet ▸ hfrom⟩
  · rw [System.Attached, hw] at hatt
    refine hatt.imp_left fun hmem => ?_
    rw [hq]
    exact ((List.sublist_cons_self cmd t.queue).filterMap _).subset hmem
  · exact (handleCmd_handled hcmd).attached hq hatt

theorem Flows.actor {l : Label} (h : s.stepActor l = some t) (hf : Flows c r s) :
    Flows c r t := by
  obtain ⟨hends, hnext, -⟩ := stepActor_cases h
  obtain ⟨more, htaken, hqueue⟩ := stepActor_takes h c
  constructor
  · exact fun hle => hf.unused (hnext ▸ hle)
  · intro hatt hr
    rw [hends] at hr
    rw [htaken, ← hf.flow (stepActor_attached h hatt) hr, System.ahead, System.ahead, hends,
      hqueue]
    simp only [List.append_assoc]

theorem Flows.opened (remote : SocketAddr) (hi : Ids s) (hf : Flows c r s) :
    Flows c r (s.opened remote) := by
  by_cases hc : c = s.nextConn
  · -- a number not given out yet: nothing has been taken or read
    subst hc
    have hnone : takenFrom s.nextConn s.world.log = [] :=
      takenFrom_other (hi.unborn _ (Nat.le_refl _)).1
    refine ⟨fun hle => absurd hle (Nat.not_succ_le_self _), fun _ _ => ?_⟩
    rw [hf.unused (Nat.le_refl _), System.ahead]
    show [] ++ ((Function.update s.endpoints s.nextConn _ s.nextConn).unread ++
      (Function.update s.world.chans s.nextConn _ s.nextConn).queue.flatten) = _
    rw [Function.update_self, Function.update_self]
    exact hnone.symm
  · have hends : (s.opened remote).endpoints c = s.endpoints c := Function.update_of_ne hc ..
    have hchans : (s.opened remote).world.chans c = s.world.chans c :=
      Function.update_of_ne hc ..
    refine ⟨fun hle => hf.unused (Nat.le_of_succ_le hle), fun hatt hr => ?_⟩
    rw [System.ahead, hends, hchans]
    refine hf.flow ?_ (hends ▸ hr)
    refine hatt.imp_left fun hmem => ?_
    have hsplit : (s.opened remote).queue.filterMap Cmd.connId =
        s.queue.filterMap Cmd.connId ++ [s.nextConn] := List.filterMap_append ..
    rw [hsplit] at hmem
    rcases List.mem_append.mp hmem with hmem | hmem
    · exact hmem
    · exact absurd (List.mem_singleton.mp hmem) hc

theorem readBy_connect (remote : SocketAddr) : s.readBy c (.connect remote) = [] := rfl

/-- There is no endpoint to read under a number not given out yet. -/
theorem readBy_unused {l : Label} (hr : Reachable s) (h : s.stepAsync l = some t)
    (hle : s.nextConn ≤ c) : s.readBy c l = [] := by
  have hnone := hr.ends.unused hle
  cases l with
  | read k =>
      rw [System.readBy]
      split
      · next hk =>
          simp only [System.stepAsync, hk, hnone] at h
          cases h
      · rfl
  | pollRead k n => rw [System.readBy, hnone]
  | _ => rfl

theorem not_attached (hi : Ids s) : ¬ s.Attached s.nextConn := by
  rintro (hmem | ⟨k, conn, hentry, hfrom⟩)
  · exact Nat.lt_irrefl _ (hi.queued _ hmem).1
  · exact (hi.unborn _ (Nat.le_refl _)).2 k conn hentry hfrom

/-- **One step**: what the application is given is added to what it has read. -/
theorem Flows.step {l : Label} (hr : Reachable s) (h : Step s l t) (hl : InOrder c s l)
    (hf : Flows c r s) : Flows c (r ++ s.readBy c l) t := by
  rcases step_cases h with h | h
  · rw [stepActor_readBy h, List.append_nil]
    exact hf.actor h
  · rcases stepAsync_cases h with ⟨remote, rfl, rfl⟩ | ⟨k, e, cmds, hm, hb⟩
    · rw [readBy_connect, List.append_nil]
      exact hf.opened remote hr.ids
    · have hids : t.queue.filterMap Cmd.connId = s.queue.filterMap Cmd.connId := by
        rw [hb.queue, List.filterMap_append, hm.connIds, List.append_nil]
      constructor
      · intro hle
        rw [hb.nextConn] at hle
        rw [hf.unused hle, readBy_unused hr h hle]
        rfl
      · intro hatt hreads
        rw [System.Attached, hids, hb.same.entry] at hatt
        have hnew : c ≠ s.nextConn := by
          rintro rfl
          exact not_attached hr.ids hatt
        obtain ⟨hold, hahead⟩ := stepAsync_ahead h hl hnew hreads
        rw [List.append_assoc, hahead, hb.same.log]
        exact hf.flow hatt hold

end

/-! ## From the socket to the channel -/

/-- What the slot of an entry has received, or `none` for a socket whose TIME-WAIT has run out:
the bytes taken, then the receive buffer. -/
def received (recvBuf : D.Tcp → List UInt8) : Books D (Option (List UInt8)) where
  read := takenFrom
  fresh := some []
  polled bytes sock sock' :=
    if D.Expired sock sock' then none
    else bytes.map (· ++ (recvBuf sock').drop (recvBuf sock).length)
  Balanced
    | some bytes, taken, sock => taken ++ recvBuf sock = bytes
    | none, _, sock => D.state sock = .closed

/-- The visit to a closed socket removes it. -/
theorem visit_closed (hC : D.CloseLaws) (h : Handle) (seams : List Nat) {sock : D.Tcp}
    (conn : Conn) (chan : Chan) (hclosed : D.state sock = .closed) :
    (visit D h seams sock conn chan).remove = true := by
  refine (visit_remove ..).mpr (.inr ?_)
  have hpumped : D.state (pump (flush seams sock conn.outBuf).sock chan).sock = .closed := by
    rw [pump_state hC, flush_state hC, hclosed]
  simp only [visit]
  split
  · rw [hC.close_late _ (.inr (.inr (.inr hpumped))), hpumped]
  · exact hpumped

theorem received_lawful {recvBuf : D.Tcp → List UInt8} (hC : D.CloseLaws)
    (hR : D.RecvLaws recvBuf) : (received recvBuf).Lawful where
  visitsOnly := takenFrom_visitsOnly
  connected := hR.connected
  visited h seams sock conn chan bytes taken hb hkeep := by
    cases bytes with
    | some bytes =>
        show (taken ++ takenFrom conn.fromNet (Visit.events _ _)) ++ _ = bytes
        rw [Visit.events_taken, List.append_assoc, visit_recvBuf hR]
        exact hb
    | none =>
        rw [visit_closed hC h seams conn chan hb] at hkeep
        cases hkeep
  polled now iface device s h sock sock' bytes taken hsock hsock' hb := by
    simp only [received]
    by_cases hexpired : D.Expired sock sock'
    · rw [if_pos hexpired]
      exact hexpired.2
    · rw [if_neg hexpired]
      cases bytes with
      | none => exact hR.closed _ _ _ _ _ _ _ hsock hsock' hb
      | some bytes =>
          obtain ⟨more, hmore⟩ := (hR.polled _ _ _ _ _ _ _ hsock hsock').resolve_left hexpired
          have hbytes : taken ++ recvBuf sock = bytes := hb
          show taken ++ recvBuf sock' = bytes ++ (recvBuf sock').drop (recvBuf sock).length
          rw [← hmore, List.drop_left, ← hbytes, List.append_assoc]

/-! ## The whole way -/

/-- The system, what the socket in each slot has received since its connect, and what the
application of each connection has read. -/
structure Traced (D : Deps) where
  sys : System D
  received : Handle → Option (List UInt8)
  read : ConnId → List UInt8

section
variable (recvBuf : D.Tcp → List UInt8)

/-- What a poll adds to the receive buffer has been received; a slot without an entry starts
again. -/
def receives (l : Label) (s s' : System D) (h : Handle) (bytes : Option (List UInt8)) :
    Option (List UInt8) :=
  if s'.world.entry h = none then some []
  else
    match l, D.tcp s.world.actor.sockets h, D.tcp s'.world.actor.sockets h with
    | .poll _, some sock, some sock' =>
        if D.Expired sock sock' then none
        else bytes.map (· ++ (recvBuf sock').drop (recvBuf sock).length)
    | _, _, _ => bytes

theorem receives_eq : receives recvBuf = (received recvBuf).next := rfl

def Traced.step (t : Traced D) (l : Label) : Option (Traced D) :=
  (t.sys.step l).map fun s =>
    { sys := s
      received := fun h => receives recvBuf l t.sys s h (t.received h)
      read := fun c => t.read c ++ t.sys.readBy c l }

/-- `netstack::spawn`, with nothing received and nothing read. -/
def Traced.init (s : System D) : Traced D := ⟨s, fun _ => some [], fun _ => []⟩

/-- The runs in which the application of `c` reads in order. -/
abbrev Traced.Reachable (c : ConnId) (t : Traced D) : Prop :=
  Transition.Reachable
    (guarded (fun t l t' => Traced.step recvBuf t l = some t') fun t l => InOrder c t.sys l)
    (fun t => ∃ s, Init s ∧ t = .init s) t

/-- Every run of the system in which `c` is read in order is traced. -/
theorem exists_traced {c : ConnId} {s : System D}
    (h : Transition.Reachable (guarded Step (InOrder c)) Init s) :
    ∃ t : Traced D, t.sys = s ∧ t.Reachable recvBuf c := by
  induction h with
  | init hs => exact ⟨.init _, rfl, .init ⟨_, hs, rfl⟩⟩
  | @tail s s' l _ hstep ih =>
      obtain ⟨t, rfl, ht⟩ := ih
      have hnext : Traced.step recvBuf t l = some
          ⟨s', fun h => receives recvBuf l t.sys s' h (t.received h),
            fun c => t.read c ++ t.sys.readBy c l⟩ := by
        rw [Traced.step, show t.sys.step l = some s' from hstep.1]
        rfl
      exact ⟨_, rfl, ht.tail ⟨hnext, hstep.2⟩⟩

/-- What holds along the way. -/
structure Conserved (c : ConnId) (t : Traced D) : Prop where
  sys : Netstack.Reachable t.sys
  fed : (received recvBuf).Balances t.received t.sys.world
  free : ∀ h, t.sys.world.entry h = none → t.received h = some []
  flows : Flows c (t.read c) t.sys

end

section
variable {live : D.Dns → D.Query → Prop} {recvBuf : D.Tcp → List UInt8}

theorem Conserved.step (hD : D.SocketSetLaws) (hP : D.PollLaws) (hQ : D.DnsLaws live)
    (hC : D.CloseLaws) (hR : D.RecvLaws recvBuf) {c : ConnId} {t t' : Traced D} {l : Label}
    (h : t.step recvBuf l = some t') (hl : InOrder c t.sys l) (hc : Conserved recvBuf c t) :
    Conserved recvBuf c t' := by
  rw [Traced.step, Option.map_eq_some_iff] at h
  obtain ⟨s', hstep, rfl⟩ := h
  have hin := ((hc.sys.runs hD hP hQ).world.sound hD hP hQ).inStep
  refine ⟨hc.sys.tail hstep, ?_, fun k hk => if_pos hk, hc.flows.step hc.sys hstep hl⟩
  rw [receives_eq]
  exact (received_lawful hC hR).step hD hP hc.sys hin hc.free hstep hc.fed

theorem Traced.Reachable.conserved (hD : D.SocketSetLaws) (hP : D.PollLaws)
    (hQ : D.DnsLaws live) (hC : D.CloseLaws) (hR : D.RecvLaws recvBuf) {c : ConnId}
    {t : Traced D} (h : t.Reachable recvBuf c) : Conserved recvBuf c t := by
  refine Transition.Reachable.invariant (Conserved recvBuf c) h ?_
    fun t l t' hc hstep => hc.step hD hP hQ hC hR hstep.1 hstep.2
  rintro t ⟨s, hs, rfl⟩
  have habsent : ∀ {k conn}, s.world.entry k ≠ some conn := by
    intro k conn hconn
    rw [hs.entry] at hconn
    cases hconn
  refine ⟨.init hs, fun _ _ _ hconn => absurd hconn habsent, fun _ _ => rfl, fun _ => rfl, ?_⟩
  rintro (hmem | ⟨k, conn, hconn, -⟩)
  · obtain ⟨mtu, v4, v6, rfl⟩ := hs
    exact absurd hmem List.not_mem_nil
  · exact absurd hconn habsent

/-- **The inbound stream is whole.**  In every run in which the application of `c` reads in
order, while the entry is there: the bytes read, those unread, the chunks and the receive buffer
of the socket are the bytes received, unless the socket has been closed at the end of TIME-WAIT.
Nothing is taken without room in the channel, and a read into a buffer with room returns without
a byte only when the sender is gone and everything has been read. -/
theorem inbound_integrity (hD : D.SocketSetLaws) (hP : D.PollLaws) (hQ : D.DnsLaws live)
    (hC : D.CloseLaws) (hR : D.RecvLaws recvBuf) (c : ConnId) {t : Traced D}
    (h : t.Reachable recvBuf c) :
    (∀ k conn sock, t.sys.world.entry k = some conn → conn.fromNet = c →
      D.tcp t.sys.world.actor.sockets k = some sock → (t.sys.endpoints c).Reads →
      (∀ bytes, t.received k = some bytes →
        t.read c ++ (t.sys.endpoints c).unread ++ (t.sys.world.chans c).queue.flatten ++
          recvBuf sock = bytes) ∧
      (t.received k = none → D.state sock = .closed)) ∧
    (t.sys.world.chans c).Bounded ∧
    ((t.sys.world.chans c).reservable = false → ∀ k seams sock conn,
      (visit D k seams sock conn (t.sys.world.chans c)).taken = [] ∧
        recvBuf (visit D k seams sock conn (t.sys.world.chans c)).sock = recvBuf sock) ∧
    ∀ tcp n, t.sys.endpoints c = .conn tcp → 0 < n →
      (tcp.pollRead (t.sys.world.chans c) n).1 = .eof ∨
        (tcp.pollRead (t.sys.world.chans c) n).1 = .ready [] →
      (t.sys.world.chans c).tx = false ∧ (t.sys.world.chans c).queue = [] ∧ tcp.unread = [] := by
  have hc := h.conserved hD hP hQ hC hR
  have hb := hc.sys.bounded c
  refine ⟨fun k conn sock hconn hfrom hsock hreads => ⟨fun bytes hbytes => ?_, fun hnone => ?_⟩,
    hb, fun hfull k seams sock conn => ?_, fun tcp n _ hn hread => pollRead_nothing hn hb hread⟩
  · have hflow := hc.flows.flow (.inr ⟨k, conn, hconn, hfrom⟩) hreads
    have hbooks := hc.fed k conn sock hconn hsock
    rw [hbytes] at hbooks
    have hstream : takenFrom conn.fromNet t.sys.world.log ++ recvBuf sock = bytes := hbooks
    rw [hfrom, ← hflow, System.ahead] at hstream
    rw [← hstream]
    simp only [List.append_assoc]
  · have hclosed := hc.fed k conn sock hconn hsock
    rw [hnone] at hclosed
    exact hclosed
  · have htaken := (visit_full k seams sock conn hfull).1
    have hvisit := visit_recvBuf hR k seams sock conn (t.sys.world.chans c)
    rw [htaken, List.nil_append] at hvisit
    exact ⟨htaken, hvisit⟩

end

/-! ## The small netstack -/

theorem Toy.close_rx (sock : Toy.Tcp) : (Toy.close sock).rx = sock.rx := by
  cases hst : sock.state <;> simp only [Toy.close, hst]

theorem Deps.toy_recvLaws : Deps.toy.RecvLaws Toy.Tcp.rx where
  connected iface rx tx remote port iface' sock h := by
    simp only [Deps.toy] at h
    split at h
    · cases h
    · cases h
      rfl
  sendSlice sock data := rfl
  recvSlice sock size data sock' h := by
    cases h
    exact List.take_append_drop size (Toy.Tcp.rx sock)
  recvFailed sock size sock' h := by cases h
  close := Toy.close_rx
  polled now iface device s h sock sock' hs hs' :=
    .inr ((Toy.get_delivers device.rx s h).grows hs hs').rx
  closed now iface device s h sock sock' hs hs' :=
    ((Toy.get_delivers device.rx s h).grows hs hs').closed

/-- A sufficient check of `InOrder` at one state. -/
def inOrder (c : ConnId) (s : System D) : Label → Bool
  | .read k | .split k => k != c || (s.endpoints c).unread.isEmpty
  | _ => true

theorem inOrder_sound (c : ConnId) (s : System D) (l : Label) (h : inOrder c s l = true) :
    InOrder c s l := by
  rintro (rfl | rfl)
  all_goals
    simp only [inOrder, bne_self_eq_false, Bool.false_or, List.isEmpty_iff] at h
    exact h

/-- Three bytes in a chunk, two of them read; one more in the socket. -/
theorem inbound_integrity_partly : ∃ t : Traced Deps.toy, t.read 0 = [5, 6] ∧
    (t.sys.endpoints 0).unread = [7] ∧
    ∃ sock, Deps.toy.tcp t.sys.world.actor.sockets 1 = some sock ∧
      t.read 0 ++ (t.sys.endpoints 0).unread ++ (t.sys.world.chans 0).queue.flatten ++
        Toy.Tcp.rx sock = [5, 6, 7, 8] := by
  let labels : List Label :=
    [.connect ⟨.v4 1, 80⟩, .poll 0, .service [], .dns, .recv, .inbound [1, 0], .recv, .drained,
      .poll 1, .service [(1, [])], .dns, .connected 0, .inbound [1, 1, 5, 6, 7], .recv, .drained,
      .poll 2, .service [(1, [])], .dns, .pollRead 0 2, .inbound [1, 1, 8], .recv, .drained,
      .poll 3]
  have hrun : (Transition.exec (Traced.step Toy.Tcp.rx) (fun t => inOrder 0 t.sys)
      (Traced.init (System.init Deps.toy 1280 0 none)) labels).any (fun t =>
        t.read 0 = [5, 6] ∧ t.sys.endpoints 0 = .conn ⟨1, [5, 6, 7], 2⟩ ∧
        t.received 1 = some [5, 6, 7, 8] ∧
        (t.sys.world.entry 1).map Conn.fromNet = some 0 ∧
        (Deps.toy.tcp t.sys.world.actor.sockets 1).isSome) = true := by
    decide +kernel
  obtain ⟨t, ht, hfacts⟩ := (Option.any_eq_true _ _).mp hrun
  obtain ⟨hread, hend, hreceived, hentry, hsome⟩ := of_decide_eq_true hfacts
  have hr : t.Reachable Toy.Tcp.rx 0 :=
    Transition.Reachable.exec (fun _ _ _ h => h) (fun t l _ => inOrder_sound 0 t.sys l) labels
      (.init ⟨_, ⟨1280, 0, none, rfl⟩, rfl⟩) ht
  obtain ⟨conn, hconn, hfrom⟩ := Option.map_eq_some_iff.mp hentry
  obtain ⟨sock, hsock⟩ := Option.isSome_iff_exists.mp hsome
  have hwhole := (inbound_integrity Deps.toy_socketSetLaws Deps.toy_pollLaws Deps.toy_dnsLaws
    Deps.toy_closeLaws Deps.toy_recvLaws 0 hr).1 1 conn sock hconn hfrom hsock
    (by rw [hend]; trivial)
  exact ⟨t, hread, by rw [hend]; rfl, sock, hsock, hwhole.1 _ hreceived⟩

end

end WarpProxy.Netstack
