/-
# `WarpProxy.Netstack.Reading` — the ways of reading one connection

`poll_read` keeps the rest of a chunk in `read_buf`, and hands it out before it
goes to the channel again.  `recv` goes to the channel right away, and
`into_split` drops `read_buf` with whatever is in it.  So what the calls return
is the stream only as long as a `recv` that gets a chunk has nothing to pass
over:

    read, then held, then the chunks     is what was delivered     (`InStream`)

What is held is recorded beside the system (`Reading`): the rest in `read_buf`,
and after a split the rest that went with it.
-/
import WarpProxy.Netstack.Inbound

namespace WarpProxy.Netstack

open Transition (guarded)

/-- The system, what the calls on one connection have returned, and what its split has thrown
away. -/
structure Reading (D : Deps) where
  sys : System D
  read : List UInt8
  lost : List UInt8

section
variable {D : Deps} (c : ConnId)

/-- What has been taken off the channel of `c` and not been returned. -/
def Reading.held (t : Reading D) : List UInt8 := (t.sys.endpoints c).held t.lost

/-- The chunks the actor has delivered to `c`, one after the other. -/
def Reading.delivered (t : Reading D) : List UInt8 := takenFrom c t.sys.world.log

def Reading.step (t : Reading D) (l : Label) : Option (Reading D) :=
  (t.sys.step l).map fun s => ⟨s, t.read ++ t.sys.readBy c l, t.sys.lostBy c l t.lost⟩

/-- `netstack::spawn`, with nothing read. -/
def Reading.init (s : System D) : Reading D := ⟨s, [], []⟩

/-- A `recv` that gets a chunk has nothing to pass over. -/
def PassesNothing (t : Reading D) (l : Label) : Prop :=
  l = .read c → (t.sys.world.chans c).queue ≠ [] → t.held c = []

/-- The runs of the system, with what is read from `c`. -/
abbrev Reading.Runs (t : Reading D) : Prop :=
  Transition.Reachable (fun t l t' => Reading.step c t l = some t')
    (fun t => ∃ s, Init s ∧ t = .init s) t

/-- Those whose `recv`s pass over nothing. -/
abbrev Reading.Reachable (t : Reading D) : Prop :=
  Transition.Reachable
    (guarded (fun t l t' => Reading.step c t l = some t') (PassesNothing c))
    (fun t => ∃ s, Init s ∧ t = .init s) t

/-- What is read is the front of what was delivered; while there is a reader, what is held and
what is queued are the rest of it. -/
structure InStream (t : Reading D) : Prop where
  sys : Netstack.Reachable t.sys
  unused : t.sys.nextConn ≤ c → t.read = []
  front : t.read <+: t.delivered c
  stream : (t.sys.endpoints c).Reads →
    t.read ++ (t.held c ++ (t.sys.world.chans c).queue.flatten) = t.delivered c

variable {c}

/-! ## One step -/

theorem stepActor_lostBy {s s' : System D} {l : Label} (h : s.stepActor l = some s')
    (lost : List UInt8) : s.lostBy c l lost = lost := by
  cases l with
  | split k => cases h
  | _ => rfl

/-- A read gives something only to a reader, and leaves it there. -/
theorem readBy_reads {s s' : System D} {l : Label} (h : s.stepAsync l = some s')
    (hread : s.readBy c l ≠ []) : (s.endpoints c).Reads ∧ (s'.endpoints c).Reads := by
  cases l with
  | read k =>
      rw [System.readBy] at hread
      split at hread
      · next hk =>
          subst hk
          simp only [System.stepAsync] at h
          split at h
          · next hend => cases h; exact ⟨by rw [hend]; trivial, by rw [hend]; trivial⟩
          · next hend => cases h; exact ⟨by rw [hend]; trivial, by rw [hend]; trivial⟩
          · cases h
      · exact absurd rfl hread
  | pollRead k n =>
      cases AsyncStep.of_eq h with
      | @pollRead _ tcp _ hend =>
          by_cases hk : k = c
          · subst hk
            refine ⟨by rw [hend]; trivial, ?_⟩
            show (Function.update s.endpoints k _ k).Reads
            rw [Function.update_self]
            trivial
          · rw [System.readBy] at hread
            split at hread
            · exact absurd (if_neg hk) hread
            · exact absurd rfl hread
  | _ => exact absurd rfl hread

/-- The actor delivers to the end of the queue. -/
theorem InStream.actor {t : Reading D} {s : System D} {l : Label}
    (h : t.sys.stepActor l = some s) (hi : InStream c t) :
    InStream c ⟨s, t.read ++ t.sys.readBy c l, t.sys.lostBy c l t.lost⟩ := by
  obtain ⟨hends, hnext, -⟩ := stepActor_cases h
  obtain ⟨more, htaken, hqueue⟩ := stepActor_takes h c
  rw [stepActor_readBy h, stepActor_lostBy h, List.append_nil]
  refine ⟨hi.sys.tail (show t.sys.step l = some s by rw [System.step, h, Option.or]),
    fun hle => hi.unused (hnext ▸ hle), ?_, fun hr => ?_⟩
  · show t.read <+: takenFrom c s.world.log
    rw [htaken]
    exact hi.front.trans (List.prefix_append ..)
  · replace hr : (t.sys.endpoints c).Reads := hends ▸ hr
    have hstream := hi.stream hr
    rw [Reading.held, Reading.delivered] at hstream ⊢
    show t.read ++ ((s.endpoints c).held t.lost ++ (s.world.chans c).queue.flatten)
      = takenFrom c s.world.log
    rw [hends, htaken, hqueue, ← hstream]
    simp only [List.append_assoc]

/-- A fresh number has an empty channel and an empty log. -/
theorem InStream.opened {t : Reading D} (remote : SocketAddr) (hi : InStream c t)
    (hstep : t.sys.stepAsync (.connect remote) = some (t.sys.opened remote)) :
    InStream c ⟨t.sys.opened remote, t.read, t.lost⟩ := by
  refine ⟨hi.sys.tail (show t.sys.step (.connect remote) = _ from hstep),
    fun hle => hi.unused (Nat.le_of_succ_le hle), hi.front, fun hr => ?_⟩
  by_cases hc : c = t.sys.nextConn
  · subst hc
    have hnone : takenFrom t.sys.nextConn t.sys.world.log = [] :=
      takenFrom_other (hi.sys.ids.unborn _ (Nat.le_refl _)).1
    rw [hi.unused (Nat.le_refl _)]
    show [] ++ ((Function.update t.sys.endpoints t.sys.nextConn _ t.sys.nextConn).held t.lost ++
      (Function.update t.sys.world.chans t.sys.nextConn _ t.sys.nextConn).queue.flatten) = _
    rw [Function.update_self, Function.update_self]
    exact hnone.symm
  · have hstream := stepAsync_held t.lost hstep (fun heq => by cases heq) hc hr
    show t.read ++ _ = takenFrom c t.sys.world.log
    exact (congrArg (t.read ++ ·) hstream.2).trans (hi.stream hstream.1)

/-- A step of the async side: what it gives the reader was held, or next in the queue. -/
theorem InStream.async {t : Reading D} {s : System D} {l : Label}
    (h : t.sys.stepAsync l = some s) (hstep : Step t.sys l s) (hl : PassesNothing c t l)
    (hi : InStream c t) :
    InStream c ⟨s, t.read ++ t.sys.readBy c l, t.sys.lostBy c l t.lost⟩ := by
  rcases stepAsync_cases h with ⟨remote, rfl, rfl⟩ | ⟨k, e, cmds, -, hb⟩
  · rw [readBy_connect, List.append_nil]
    exact hi.opened remote h
  · have hreach : Netstack.Reachable s := hi.sys.tail hstep
    have hlog : s.world.log = t.sys.world.log := hb.same.log
    have hstream : (s.endpoints c).Reads →
        t.read ++ t.sys.readBy c l ++ ((s.endpoints c).held (t.sys.lostBy c l t.lost) ++
          (s.world.chans c).queue.flatten) = takenFrom c t.sys.world.log := by
      intro hr
      have hnew : c ≠ t.sys.nextConn := by
        rintro rfl
        rw [hreach.ends.unused (Nat.le_of_eq hb.nextConn)] at hr
        exact hr
      obtain ⟨hold, hheld⟩ := stepAsync_held t.lost h hl hnew hr
      rw [List.append_assoc, hheld]
      exact hi.stream hold
    refine ⟨hreach, fun hle => ?_, ?_, fun hr => ?_⟩
    · replace hle : t.sys.nextConn ≤ c := hb.nextConn ▸ hle
      show t.read ++ t.sys.readBy c l = []
      rw [hi.unused hle, readBy_unused hi.sys h hle]
      rfl
    · show t.read ++ t.sys.readBy c l <+: takenFrom c s.world.log
      rw [hlog]
      by_cases hread : t.sys.readBy c l = []
      · rw [hread, List.append_nil]
        exact hi.front
      · exact ⟨_, hstream (readBy_reads h hread).2⟩
    · show _ = takenFrom c s.world.log
      rw [hlog]
      exact hstream hr

theorem InStream.step {t t' : Reading D} {l : Label} (h : Reading.step c t l = some t')
    (hl : PassesNothing c t l) (hi : InStream c t) : InStream c t' := by
  rw [Reading.step, Option.map_eq_some_iff] at h
  obtain ⟨s, hstep, rfl⟩ := h
  rcases step_cases hstep with h | h
  · exact hi.actor h
  · exact hi.async h hstep hl

theorem Reading.Reachable.inStream {t : Reading D} (h : t.Reachable c) : InStream c t := by
  refine Transition.Reachable.invariant (InStream c) h ?_
    fun t l t' hi hstep => hi.step hstep.1 hstep.2
  rintro t ⟨s, hs, rfl⟩
  obtain ⟨mtu, v4, v6, rfl⟩ := hs
  exact ⟨.init ⟨mtu, v4, v6, rfl⟩, fun _ => rfl, List.prefix_refl _, fun hr => hr.elim⟩

/-- A `recv` that gets a chunk with something held returns the chunk before it. -/
theorem InStream.recv {t t' : Reading D} (hi : InStream c t)
    (h : Reading.step c t (.read c) = some t') {chunk : List UInt8} {queue : List (List UInt8)}
    (hqueue : (t.sys.world.chans c).queue = chunk :: queue) :
    t'.read <+: t'.delivered c ↔ chunk <+: t.held c ++ chunk := by
  rw [Reading.step, Option.map_eq_some_iff] at h
  obtain ⟨s, hstep, rfl⟩ := h
  rcases step_cases hstep with h | h
  · cases h
  · have hgives : t.sys.readBy c (.read c) = chunk := by
      rw [System.readBy, if_pos rfl, Chan.recv, hqueue]
      rfl
    have hreads : (t.sys.endpoints c).Reads := by
      simp only [System.stepAsync] at h
      split at h
      · next hend => rw [hend]; trivial
      · next hend => rw [hend]; trivial
      · cases h
    have hlog : s.world.log = t.sys.world.log := by
      cases AsyncStep.of_eq h with
      | read => rfl
    have hstream := hi.stream hreads
    rw [hqueue, List.flatten_cons, ← List.append_assoc (t.held c)] at hstream
    show t.read ++ _ <+: takenFrom c s.world.log ↔ _
    rw [hgives, hlog, show takenFrom c t.sys.world.log = _ from hstream.symm,
      List.prefix_append_right_inj]
    constructor
    · intro hfront
      refine List.prefix_of_prefix_length_le hfront (List.prefix_append ..) ?_
      rw [List.length_append]
      exact Nat.le_add_left ..
    · exact fun hfront => hfront.trans (List.prefix_append ..)

/-- **One stream.**  In every run whose `recv`s, on the `TcpConn` or on the reader it was split
into, pass over nothing held, the bytes the calls return are a prefix of the chunks delivered,
and while there is a reader the rest is what is held and what is queued.  The first `recv` that
does pass over something keeps the prefix only if the chunk starts the same way. -/
theorem one_stream (c : ConnId) {t : Reading D} (h : t.Reachable c) :
    t.read <+: t.delivered c ∧
    ((t.sys.endpoints c).Reads →
      t.read ++ (t.held c ++ (t.sys.world.chans c).queue.flatten) = t.delivered c) ∧
    ∀ t' chunk queue, Reading.step c t (.read c) = some t' →
      (t.sys.world.chans c).queue = chunk :: queue →
      (t'.read <+: t'.delivered c ↔ chunk <+: t.held c ++ chunk) := by
  have hi := h.inStream
  refine ⟨hi.front, hi.stream, fun t' chunk queue hstep hqueue => ?_⟩
  exact hi.recv hstep hqueue

/-- A sufficient check of `PassesNothing` at one state. -/
def passesNothing (c : ConnId) (t : Reading D) : Label → Bool
  | .read k => k != c || (t.held c).isEmpty
  | _ => true

theorem passesNothing_sound (c : ConnId) (t : Reading D) (l : Label)
    (h : passesNothing c t l = true) : PassesNothing c t l := by
  rintro rfl -
  simp only [passesNothing, bne_self_eq_false, Bool.false_or, List.isEmpty_iff] at h
  exact h

/-- A chunk of three is read in two parts, the next one after a split. -/
theorem one_stream_split : ∃ t : Reading Deps.toy, t.read = [5, 6, 7, 8] ∧
    t.sys.endpoints 0 = .split true (some 1) ∧ t.read <+: t.delivered 0 := by
  let labels : List Label :=
    [.connect ⟨.v4 1, 80⟩, .poll 0, .service [], .dns, .recv, .inbound [1, 0], .recv, .drained,
      .poll 1, .service [(1, [])], .dns, .connected 0, .inbound [1, 1, 5, 6, 7], .recv, .drained,
      .poll 2, .service [(1, [])], .dns, .pollRead 0 2, .pollRead 0 2, .inbound [1, 1, 8], .recv,
      .drained, .poll 3, .service [(1, [])], .split 0, .read 0]
  have hrun : (Transition.exec (Reading.step 0) (passesNothing 0)
      (Reading.init (System.init Deps.toy 1280 0 none)) labels).any (fun t =>
        t.read = [5, 6, 7, 8] ∧ t.sys.endpoints 0 = .split true (some 1)) = true := by
    decide +kernel
  obtain ⟨t, ht, hfacts⟩ := (Option.any_eq_true _ _).mp hrun
  obtain ⟨hread, hend⟩ := of_decide_eq_true hfacts
  have hr : t.Reachable 0 :=
    Transition.Reachable.exec (fun _ _ _ h => h) (fun t l _ => passesNothing_sound 0 t l) labels
      (.init ⟨_, ⟨1280, 0, none, rfl⟩, rfl⟩) ht
  exact ⟨t, hread, hend, (one_stream 0 hr).1⟩

/-- Two bytes of the chunk are read by `poll_read`, then `recv` returns the next chunk. -/
theorem recv_passes_over : ¬ ∀ t : Reading Deps.toy, t.Runs 0 → t.read <+: t.delivered 0 := by
  intro hinOrder
  let labels : List Label :=
    [.connect ⟨.v4 1, 80⟩, .poll 0, .service [], .dns, .recv, .inbound [1, 0], .recv, .drained,
      .poll 1, .service [(1, [])], .dns, .connected 0, .inbound [1, 1, 5, 6, 7], .recv, .drained,
      .poll 2, .service [(1, [])], .dns, .pollRead 0 2, .inbound [1, 1, 8], .recv, .drained,
      .poll 3, .service [(1, [])], .read 0]
  have hrun : (Transition.exec (Reading.step 0) (fun _ _ => true)
      (Reading.init (System.init Deps.toy 1280 0 none)) labels).any (fun t =>
        t.read = [5, 6, 8] ∧ t.delivered 0 = [5, 6, 7, 8]) = true := by
    decide +kernel
  obtain ⟨t, ht, hfacts⟩ := (Option.any_eq_true _ _).mp hrun
  obtain ⟨hread, hdelivered⟩ := of_decide_eq_true hfacts
  have hr : Transition.Reachable (guarded (fun t l t' => Reading.step 0 t l = some t')
      fun _ _ => True) (fun t => ∃ s, Init s ∧ t = .init s) t :=
    Transition.Reachable.exec (fun _ _ _ h => h) (fun _ _ _ _ => trivial) labels
      (.init ⟨_, ⟨1280, 0, none, rfl⟩, rfl⟩) ht
  have hfront := hinOrder t hr.unguarded
  rw [hread, hdelivered] at hfront
  exact absurd hfront (by decide)

end

end WarpProxy.Netstack
