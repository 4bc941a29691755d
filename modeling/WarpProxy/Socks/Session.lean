/-
# `WarpProxy.Socks.Session` — one client of the SOCKS5 server

`handle_pool` as the list of what it does, in order: what it writes to the client, the
connections and resolutions it attempts, and the relay it ends in.  The pool is read twice, by
`enabled` and by `pick`, so there are two pool states; what the network answers is `Outcomes`.

Once the request has been read, the list is that of `dial` (`handlePool_cases`), and what the
contract says of a session is said of `dial` first.
-/
import WarpProxy.Lib.Text
import WarpProxy.Pool.Pick
import WarpProxy.Socks.Request

namespace WarpProxy.Socks

inductive Event where
  /-- `write_all` to the client -/
  | wrote (bytes : List UInt8)
  /-- `TcpStream::connect`, which resolves the host by the system -/
  | connectDirect (t : Target) (ok : Bool)
  /-- through a netstack -/
  | resolve (net : NetHandle) (host : List Char)
  | connect (net : NetHandle) (remote : SocketAddr) (ok : Bool)
  /-- the relay starts, with these bytes of the client not read yet -/
  | relay (rest : List UInt8)
  deriving DecidableEq

/-- An upstream connection is established. -/
def Event.Establishes : Event → Prop
  | .connectDirect _ ok | .connect _ _ ok => ok = true
  | _ => False

/-- Something is attempted upstream. -/
def Event.Attempt : Event → Prop
  | .connectDirect _ _ | .resolve _ _ | .connect _ _ _ => True
  | _ => False

/-- What the outside answers. -/
structure Outcomes where
  /-- whether a `write_all` of these bytes succeeds -/
  writes : List UInt8 → Bool
  direct : Target → Bool
  resolve : NetHandle → List Char → Except Error IpAddr
  connect : NetHandle → SocketAddr → Bool

/-! ## The session -/

def isLoopbackHost (host : List Char) : Bool :=
  host == "localhost".toList || Text.endsWith host ".localhost".toList ||
    match IpText.parse host with
    | some ip => IpText.isLoopback ip
    | none => false

/-- The last reply, and the relay if it is written. -/
def finish (o : Outcomes) (rest : List UInt8) : List Event :=
  .wrote (reply 0x00) :: if o.writes (reply 0x00) then [.relay rest] else []

def viaNetstack (o : Outcomes) (net : NetHandle) (t : Target) (rest : List UInt8) : List Event :=
  .resolve net t.host ::
    match o.resolve net t.host with
    | .error _ => [.wrote (reply 0x04)]
    | .ok ip =>
        let ok := o.connect net ⟨ip, t.port⟩
        .connect net ⟨ip, t.port⟩ ok ::
          if ok then finish o rest else [.wrote (reply 0x05)]

/-- `handle_pool` after its request.  `enabled` is read in `s₁`, and the netstack picked in `s₂`,
with or without a check for overflow; a panic leaves nothing. -/
def dial (checked : Bool) (s₁ s₂ : Pool.State) (o : Outcomes) (t : Target) (rest : List UInt8) :
    List Event :=
  if s₁.pool.enabled = false ∨ isLoopbackHost t.host = true then
    let ok := o.direct t
    .connectDirect t ok :: if ok then finish o rest else [.wrote (reply 0x05)]
  else
    match (s₂.pick checked).1 with
    | none => []
    | some none => [.wrote (reply 0x01)]
    | some (some net) => viaNetstack o net t rest

def handlePool (checked : Bool) (s₁ s₂ : Pool.State) (o : Outcomes) (bytes : List UInt8) :
    List Event :=
  match readRequest o.writes bytes with
  | (written, .error _) => written.map .wrote
  | (written, .ok (t, rest)) => written.map .wrote ++ dial checked s₁ s₂ o t rest

/-! ## What follows the request -/

/-- The shapes of `dial`: a panic; attempts of which none establishes anything, and a refusal; or
attempts of which one does, and the end. -/
inductive Dialed (o : Outcomes) (rest : List UInt8) : List Event → Prop
  | panicked : Dialed o rest []
  | failed (attempts : List Event) {status : UInt8} :
      (∀ e ∈ attempts, e.Attempt ∧ ¬ e.Establishes) → status ≠ 0 →
      Dialed o rest (attempts ++ [.wrote (reply status)])
  | established (attempts : List Event) :
      (∀ e ∈ attempts, e.Attempt) → (∃ e ∈ attempts, e.Establishes) →
      Dialed o rest (attempts ++ finish o rest)

theorem viaNetstack_dialed (o : Outcomes) (net : NetHandle) (t : Target) (rest : List UInt8) :
    Dialed o rest (viaNetstack o net t rest) := by
  rw [viaNetstack]
  split
  · refine .failed [.resolve net t.host] ?_ (by decide)
    simp [Event.Attempt, Event.Establishes]
  · next ip _ =>
      dsimp only
      split
      · next hok =>
          refine .established [.resolve net t.host, .connect net ⟨ip, t.port⟩ _] ?_ ?_
          · simp [Event.Attempt]
          · exact ⟨_, List.mem_cons_of_mem _ (List.mem_singleton_self _), hok⟩
      · next hok =>
          refine .failed [.resolve net t.host, .connect net ⟨ip, t.port⟩ _] ?_
            (by decide)
          simpa [Event.Attempt, Event.Establishes] using hok

theorem dial_dialed (checked : Bool) (s₁ s₂ : Pool.State) (o : Outcomes) (t : Target)
    (rest : List UInt8) : Dialed o rest (dial checked s₁ s₂ o t rest) := by
  rw [dial]
  split
  · dsimp only
    split
    · next hok =>
        refine .established [.connectDirect t _] ?_ ?_
        · simp [Event.Attempt]
        · exact ⟨_, List.mem_singleton_self _, hok⟩
    · next hok =>
        refine .failed [.connectDirect t _] ?_ (by decide)
        simpa [Event.Attempt, Event.Establishes] using hok
  · split
    · exact .panicked
    · exact .failed [] (fun e he => nomatch he) (by decide)
    · exact viaNetstack_dialed ..

theorem finish_wrote {o : Outcomes} {rest : List UInt8} {e : Event} (h : e ∈ finish o rest) :
    e = .wrote (reply 0x00) ∨ e = .relay rest ∧ o.writes (reply 0x00) = true := by
  rw [finish, List.mem_cons] at h
  refine h.imp_right fun h => ?_
  split at h
  · next hwrites => exact ⟨List.mem_singleton.mp h, hwrites⟩
  · cases h

/-- Only the direct path connects directly. -/
theorem viaNetstack_indirect {o : Outcomes} {net : NetHandle} {t t' : Target}
    {rest : List UInt8} {ok : Bool} : .connectDirect t' ok ∉ viaNetstack o net t rest := by
  intro h
  have hfinish : .connectDirect t' ok ∉ finish o rest := fun h => by
    rcases finish_wrote h with h | ⟨h, -⟩ <;> cases h
  rw [viaNetstack, List.mem_cons] at h
  rcases h with h | h
  · cases h
  · split at h
    · cases List.mem_singleton.mp h
    · dsimp only at h
      rw [List.mem_cons] at h
      rcases h with h | h
      · cases h
      · split at h
        · exact hfinish h
        · cases List.mem_singleton.mp h

theorem dial_direct {checked : Bool} {s₁ s₂ : Pool.State} {o : Outcomes} {t t' : Target}
    {rest : List UInt8} {ok : Bool} (h : .connectDirect t' ok ∈ dial checked s₁ s₂ o t rest) :
    t' = t ∧ (s₁.pool.enabled = false ∨ isLoopbackHost t.host = true) := by
  rw [dial] at h
  split at h
  · next hdirect =>
      dsimp only at h
      rw [List.mem_cons] at h
      rcases h with h | h
      · cases h
        exact ⟨rfl, hdirect⟩
      · split at h
        · rcases finish_wrote h with h | ⟨h, -⟩ <;> cases h
        · cases List.mem_singleton.mp h
  · split at h
    · cases h
    · cases List.mem_singleton.mp h
    · exact absurd h viaNetstack_indirect

/-! ## What a session writes -/

/-- The bytes an event writes to the client. -/
def Event.bytes : Event → List UInt8
  | .wrote bytes => bytes
  | _ => []

/-- The bytes written to the client before the relay. -/
def written (es : List Event) : List UInt8 := es.flatMap Event.bytes

/-- A reply has status 0 exactly after an upstream connection is established. -/
def StatusSound (es : List Event) : Prop :=
  ∀ pre status post, es = pre ++ .wrote (reply status) :: post →
    (status = 0 ↔ ∃ e ∈ pre, e.Establishes)

def Event.IsReply (e : Event) : Prop := ∃ status, e = .wrote (reply status)

theorem Event.Attempt.not_reply {e : Event} (h : e.Attempt) : ¬ e.IsReply := by
  rintro ⟨status, rfl⟩
  exact h

theorem Event.Attempt.bytes {e : Event} (h : e.Attempt) : e.bytes = [] := by
  cases e with
  | wrote | relay => exact absurd h id
  | _ => rfl

theorem written_attempts {es : List Event} (h : ∀ e ∈ es, e.Attempt) : written es = [] := by
  rw [written, List.flatMap_eq_nil_iff]
  exact fun e he => (h e he).bytes

theorem selection_not_reply : ¬ Event.IsReply (.wrote selection) := by
  rintro ⟨status, h⟩
  cases h

/-- The only element with a property is found in one place. -/
theorem split_unique {α : Type} {P : α → Prop} {xs ys pre post : List α} {a b : α}
    (h : xs ++ a :: ys = pre ++ b :: post) (hb : P b) (hxs : ∀ x ∈ xs, ¬ P x)
    (hys : ∀ y ∈ ys, ¬ P y) : xs = pre ∧ a = b ∧ ys = post := by
  induction xs generalizing pre with
  | nil =>
      cases pre with
      | nil =>
          cases h
          exact ⟨rfl, rfl, rfl⟩
      | cons c pre =>
          cases h
          exact absurd hb (hys b (List.mem_append_right _ List.mem_cons_self))
  | cons x xs ih =>
      cases pre with
      | nil =>
          cases h
          exact absurd hb (hxs b List.mem_cons_self)
      | cons c pre =>
          obtain ⟨rfl, htail⟩ := List.cons.inj h
          obtain ⟨rfl, hrest⟩ := ih htail fun x hx => hxs x (List.mem_cons_of_mem _ hx)
          exact ⟨rfl, hrest⟩

theorem StatusSound.of_no_reply {es : List Event} (h : ∀ e ∈ es, ¬ e.IsReply) :
    StatusSound es := by
  rintro pre status post rfl
  exact absurd ⟨status, rfl⟩ (h _ (List.mem_append_right _ List.mem_cons_self))

/-- Attempts, one reply, and what writes nothing. -/
theorem sound_reply {attempts tail : List Event} {status : UInt8}
    (hattempts : ∀ e ∈ attempts, e.Attempt)
    (htail : ∀ e ∈ tail, ¬ e.IsReply ∧ e.bytes = [])
    (hstatus : status = 0 ↔ ∃ e ∈ attempts, e.Establishes) :
    StatusSound (.wrote selection :: (attempts ++ .wrote (reply status) :: tail)) ∧
      written (attempts ++ .wrote (reply status) :: tail) = reply status := by
  constructor
  · intro pre status' post h
    have hbefore : ∀ e ∈ .wrote selection :: attempts, ¬ e.IsReply := by
      rintro e (_ | ⟨_, he⟩)
      · exact selection_not_reply
      · exact (hattempts e he).not_reply
    rw [← List.cons_append] at h
    obtain ⟨rfl, heq, rfl⟩ := split_unique (P := Event.IsReply) h ⟨status', rfl⟩ hbefore
      fun e he => (htail e he).1
    obtain rfl : status = status' := by
      simp only [Event.wrote.injEq, reply, List.cons.injEq] at heq
      exact heq.2.1
    rw [hstatus]
    constructor
    · rintro ⟨e, he, hest⟩
      exact ⟨e, List.mem_cons_of_mem _ he, hest⟩
    · rintro ⟨e, _ | ⟨_, he⟩, hest⟩
      · exact absurd hest id
      · exact ⟨e, he, hest⟩
  · have hnone := written_attempts hattempts
    have htail' : tail.flatMap Event.bytes = [] :=
      List.flatMap_eq_nil_iff.mpr fun e he => (htail e he).2
    rw [written] at hnone
    rw [written, List.flatMap_append, hnone, List.flatMap_cons, htail', List.append_nil]
    rfl

/-- After the method selection, what `dial` does is sound, and it writes at most one reply. -/
theorem Dialed.sound {o : Outcomes} {rest : List UInt8} {es : List Event} (h : Dialed o rest es) :
    StatusSound (.wrote selection :: es) ∧
      (written es = [] ∨ ∃ status, written es = reply status) := by
  cases h with
  | panicked =>
      refine ⟨.of_no_reply fun e he => ?_, .inl rfl⟩
      rw [List.mem_singleton.mp he]
      exact selection_not_reply
  | @failed attempts status hall hstatus =>
      have htail : ∀ e ∈ ([] : List Event), ¬ e.IsReply ∧ e.bytes = [] := nofun
      obtain ⟨hsound, hwritten⟩ := sound_reply (fun e he => (hall e he).1) htail
        (iff_of_false hstatus fun ⟨e, he, hest⟩ => (hall e he).2 hest)
      exact ⟨hsound, .inr ⟨status, hwritten⟩⟩
  | established attempts hattempts hest =>
      have htail : ∀ e ∈ (if o.writes (reply 0x00) then [.relay rest] else [] : List Event),
          ¬ e.IsReply ∧ e.bytes = [] := by
        intro e he
        split at he
        · obtain rfl := List.mem_singleton.mp he
          exact ⟨fun ⟨_, h⟩ => (nomatch h), rfl⟩
        · cases he
      obtain ⟨hsound, hwritten⟩ := sound_reply hattempts htail (iff_of_true rfl hest)
      exact ⟨hsound, .inr ⟨0x00, hwritten⟩⟩

/-- What is relayed, and when. -/
theorem Dialed.relays {o : Outcomes} {rest : List UInt8} {es : List Event} (h : Dialed o rest es) :
    (∀ r, .relay r ∈ es → r = rest ∧ ∃ pre, es = pre ++ [.wrote (reply 0x00), .relay rest]) ∧
      (.wrote (reply 0x00) ∈ es → o.writes (reply 0x00) = true → .relay rest ∈ es) := by
  cases h with
  | panicked => exact ⟨nofun, nofun⟩
  | @failed attempts status hall hstatus =>
      have hno : ∀ r, .relay r ∉ attempts := fun r hr => (hall _ hr).1
      constructor
      · intro r hr
        rcases List.mem_append.mp hr with hr | hr
        · exact absurd hr (hno r)
        · cases List.mem_singleton.mp hr
      · intro hreply
        rcases List.mem_append.mp hreply with hr | hr
        · exact absurd (hall _ hr).1 id
        · have heq := List.mem_singleton.mp hr
          simp only [Event.wrote.injEq, reply, List.cons.injEq] at heq
          exact absurd heq.2.1.symm hstatus
  | established attempts hattempts hest =>
      constructor
      · intro r hr
        rcases List.mem_append.mp hr with hr | hr
        · exact absurd (hattempts _ hr) id
        · rcases finish_wrote hr with h | ⟨h, hwrites⟩
          · cases h
          · cases h
            refine ⟨rfl, attempts, ?_⟩
            rw [finish, if_pos hwrites]
      · intro _ hwrites
        refine List.mem_append_right _ ?_
        rw [finish, if_pos hwrites]
        exact List.mem_cons_of_mem _ (List.mem_singleton_self _)

/-! ## The contract -/

/-- A session ends in its request, or goes on with `dial`. -/
theorem handlePool_cases (checked : Bool) (s₁ s₂ : Pool.State) (o : Outcomes)
    (bytes : List UInt8) :
    let es := handlePool checked s₁ s₂ o bytes
    (es = [] ∨ es = [.wrote selection] ∨
      ∃ status, status ≠ 0 ∧ es = [.wrote selection, .wrote (reply status)]) ∨
    ∃ req t rest, IsRequest req t ∧ bytes = req ++ rest ∧
      es = .wrote selection :: dial checked s₁ s₂ o t rest := by
  have hwritten := readRequest_written o.writes bytes
  have hiff := @readRequest_ok_iff o.writes bytes
  rw [handlePool]
  split
  · next written e h =>
      rw [h] at hwritten
      obtain ⟨hfails, rfl | rfl⟩ := hwritten
      · exact .inl (.inl rfl)
      · cases e with
        | refused status => exact .inl (.inr (.inr ⟨status, hfails, rfl⟩))
        | _ => exact .inl (.inr (.inl rfl))
  · next written t rest h =>
      rw [h] at hwritten
      obtain rfl : written = [selection] := hwritten
      obtain ⟨-, req, hreq, hbytes⟩ := hiff.mp (congrArg Prod.snd h)
      exact .inr ⟨req, t, rest, hreq, hbytes, rfl⟩

/-- What is written after the request is refused has no status 0, and no attempt is there. -/
theorem sound_refused {es : List Event} (h : es = [] ∨ es = [.wrote selection] ∨
    ∃ status, status ≠ 0 ∧ es = [.wrote selection, .wrote (reply status)]) :
    StatusSound es ∧ ∀ e ∈ es, ∃ bytes, e = .wrote bytes ∧ bytes ≠ reply 0x00 := by
  have hselection : selection ≠ reply 0x00 := by decide
  rcases h with rfl | rfl | ⟨status, hstatus, rfl⟩
  · exact ⟨.of_no_reply nofun, nofun⟩
  · refine ⟨.of_no_reply fun e he => ?_, fun e he => ⟨_, List.mem_singleton.mp he, hselection⟩⟩
    rw [List.mem_singleton.mp he]
    exact selection_not_reply
  · have hnone : ∀ e ∈ ([] : List Event), e.Attempt := nofun
    have hnil : ∀ e ∈ ([] : List Event), ¬ e.IsReply ∧ e.bytes = [] := nofun
    have hreply : reply status ≠ reply 0x00 := fun heq => by
      simp only [reply, List.cons.injEq] at heq
      exact hstatus heq.2.1
    have hsound := sound_reply hnone hnil
      (iff_of_false hstatus fun ⟨e, he, _⟩ => (nomatch he))
    refine ⟨hsound.1, ?_⟩
    rintro e (_ | ⟨_, _ | ⟨_, he⟩⟩)
    · exact ⟨_, rfl, hselection⟩
    · exact ⟨_, rfl, hreply⟩
    · cases he

theorem dial_unready {checked : Bool} {s₁ s₂ : Pool.State} {o : Outcomes} {t : Target}
    {rest : List UInt8} (hon : s₁.pool.enabled = true) (hhost : isLoopbackHost t.host = false)
    (hs : ∀ w ∈ s₂.pool.workers, s₂.net w = none) :
    dial checked s₁ s₂ o t rest = [.wrote (reply 0x01)] ∨
      dial checked s₁ s₂ o t rest = [] ∧ checked = true ∧
        2 ^ 64 < s₂.pool.rr.toNat + s₂.pool.workers.length := by
  have hnot : ¬ (s₁.pool.enabled = false ∨ isLoopbackHost t.host = true) := by
    rw [hon, hhost]
    decide
  rw [dial, if_neg hnot]
  rcases Pool.State.pick_unready hs checked with hpick | ⟨hpick, hpanic⟩
  · exact .inl (by rw [hpick])
  · exact .inr ⟨by rw [hpick], hpanic⟩

/-- A session that has read its request. -/
theorem handlePool_request {checked : Bool} {s₁ s₂ : Pool.State} {o : Outcomes}
    {bytes req rest : List UInt8} {t : Target} (hwrites : o.writes selection = true)
    (hreq : IsRequest req t) (hbytes : bytes = req ++ rest) :
    handlePool checked s₁ s₂ o bytes = .wrote selection :: dial checked s₁ s₂ o t rest := by
  have hread := readRequest_ok_iff.mpr ⟨hwrites, req, hreq, hbytes⟩
  have hwritten := readRequest_written o.writes bytes
  rw [handlePool]
  split
  · next h =>
      rw [h] at hread
      cases hread
  · next written t' rest' h =>
      rw [h] at hread hwritten
      cases hread
      obtain rfl : written = [selection] := hwritten
      rfl

theorem session_unready {checked : Bool} {s₁ s₂ : Pool.State} {o : Outcomes}
    {bytes req rest : List UInt8} {t : Target} (hreq : IsRequest req t)
    (hbytes : bytes = req ++ rest) (hon : s₁.pool.enabled = true)
    (hhost : isLoopbackHost t.host = false) (hs : ∀ w ∈ s₂.pool.workers, s₂.net w = none) :
    (∀ e ∈ handlePool checked s₁ s₂ o bytes, ¬ e.Attempt) ∧
      (o.writes selection = true →
        checked = false ∨ s₂.pool.rr.toNat + s₂.pool.workers.length ≤ 2 ^ 64 →
        handlePool checked s₁ s₂ o bytes = [.wrote selection, .wrote (reply 0x01)]) := by
  constructor
  · rcases handlePool_cases checked s₁ s₂ o bytes with
      hstop | ⟨req', t', rest', hreq', hbytes', hes⟩
    · intro e he
      obtain ⟨bytes', rfl, -⟩ := (sound_refused hstop).2 e he
      exact id
    · obtain ⟨rfl, rfl⟩ := hreq.unique hreq' (hbytes.symm.trans hbytes')
      rw [hes]
      rcases dial_unready hon hhost hs with hdial | ⟨hdial, -⟩
      · rw [hdial]
        rintro e (_ | ⟨_, _ | ⟨_, he⟩⟩)
        · exact id
        · exact id
        · cases he
      · rw [hdial]
        rintro e (_ | ⟨_, he⟩)
        · exact id
        · cases he
  · intro hwrites hreturns
    rw [handlePool_request hwrites hreq hbytes]
    rcases dial_unready hon hhost hs with hdial | ⟨-, hchecked, hwraps⟩
    · rw [hdial]
    · rcases hreturns with hfree | hle
      · cases hchecked.symm.trans hfree
      · exact absurd hwraps (Nat.not_lt.mpr hle)

/-- **The contract of a session**, for every byte stream, every state of the pool and all that the
network answers.  What is written before the relay is nothing, the method selection, or that and
one reply.  A reply has status 0 exactly after an upstream connection is established; the relay
starts right after it, if it is written, with the bytes that follow the request.  Only with the
pool off, or for a loopback host, is a direct connection attempted.  With the pool on, another host
and no ready worker nothing is attempted, and the status is 1 unless `pick` panics, which it can
only in a build that checks for overflow and with a counter about to wrap. -/
theorem session_contract (checked : Bool) (s₁ s₂ : Pool.State) (o : Outcomes)
    (bytes : List UInt8) :
    let es := handlePool checked s₁ s₂ o bytes
    (written es = [] ∨ written es = selection ∨
      ∃ status, written es = selection ++ reply status) ∧
    StatusSound es ∧
    (∀ r, .relay r ∈ es → ∃ req t pre, IsRequest req t ∧ bytes = req ++ r ∧
      es = pre ++ [.wrote (reply 0x00), .relay r]) ∧
    (.wrote (reply 0x00) ∈ es → o.writes (reply 0x00) = true → ∃ r, .relay r ∈ es) ∧
    (∀ t ok, .connectDirect t ok ∈ es →
      s₁.pool.enabled = false ∨ isLoopbackHost t.host = true) ∧
    ∀ req t rest, IsRequest req t → bytes = req ++ rest → s₁.pool.enabled = true →
      isLoopbackHost t.host = false → (∀ w ∈ s₂.pool.workers, s₂.net w = none) →
      (∀ e ∈ es, ¬ e.Attempt) ∧
      (o.writes selection = true →
        checked = false ∨ s₂.pool.rr.toNat + s₂.pool.workers.length ≤ 2 ^ 64 →
        es = [.wrote selection, .wrote (reply 0x01)]) := by
  intro es
  have hunready : ∀ req t rest, IsRequest req t → bytes = req ++ rest →
      s₁.pool.enabled = true → isLoopbackHost t.host = false →
      (∀ w ∈ s₂.pool.workers, s₂.net w = none) → (∀ e ∈ es, ¬ e.Attempt) ∧ _ :=
    fun req t rest hreq hbytes hon hhost hs => session_unready hreq hbytes hon hhost hs
  rcases handlePool_cases checked s₁ s₂ o bytes with hstop | ⟨req, t, rest, hreq, hbytes, hes⟩
  · obtain ⟨hsound, hwrote⟩ := sound_refused hstop
    have hno : ∀ {e : Event}, e ∈ es → (∀ bytes, e = .wrote bytes → bytes = reply 0x00) →
        False := by
      intro e he hall
      obtain ⟨bytes', rfl, hne⟩ := hwrote e he
      exact hne (hall bytes' rfl)
    refine ⟨?_, hsound, fun r hr => (hno hr nofun).elim, fun hr => ?_,
      fun t ok ht => (hno ht nofun).elim, hunready⟩
    · rcases hstop with h | h | ⟨status, -, h⟩
      · exact .inl (by rw [show es = _ from h]; rfl)
      · exact .inr (.inl (by rw [show es = _ from h]; rfl))
      · exact .inr (.inr ⟨status, by rw [show es = _ from h]; rfl⟩)
    · exact (hno hr fun bytes' h => (Event.wrote.inj h).symm).elim
  · have hdialed := dial_dialed checked s₁ s₂ o t rest
    obtain ⟨hsound, hwritten⟩ := hdialed.sound
    obtain ⟨hrelay, hends⟩ := hdialed.relays
    have hes : es = .wrote selection :: dial checked s₁ s₂ o t rest := hes
    have htail : ∀ {e : Event}, e ∈ es → e ≠ .wrote selection →
        e ∈ dial checked s₁ s₂ o t rest := by
      intro e he hne
      rw [hes] at he
      exact (List.mem_cons.mp he).resolve_left hne
    refine ⟨.inr ?_, hes ▸ hsound, fun r hr => ?_, fun hr hwrites => ?_, fun t' ok ht => ?_,
      hunready⟩
    · rw [hes]
      rcases hwritten with h | ⟨status, h⟩
      · exact .inl (congrArg (selection ++ ·) h)
      · exact .inr ⟨status, congrArg (selection ++ ·) h⟩
    · obtain ⟨rfl, pre, hpre⟩ := hrelay r (htail hr nofun)
      exact ⟨req, t, .wrote selection :: pre, hreq, hbytes, by rw [hes, hpre]; rfl⟩
    · refine ⟨rest, ?_⟩
      rw [hes]
      refine List.mem_cons_of_mem _ (hends (htail hr fun h => ?_) hwrites)
      exact absurd (Event.wrote.inj h) (by decide)
    · obtain ⟨rfl, hdirect⟩ := dial_direct (htail ht nofun)
      exact hdirect

/-- A client with the pool off, which sends its first bytes behind the request. -/
example (s : Pool.State) (o : Outcomes) (hon : s.pool.enabled = false)
    (hwrites : ∀ bytes, o.writes bytes = true) (hdirect : ∀ t, o.direct t = true) :
    handlePool false s s o ([5, 1, 0, 5, 1, 0, 1, 10, 0, 0, 1, 0, 80] ++ [71, 69, 84]) =
      [.wrote selection, .connectDirect ⟨"10.0.0.1".toList, 80⟩ true, .wrote (reply 0x00),
        .relay [71, 69, 84]] := by
  have hreq : IsRequest [5, 1, 0, 5, 1, 0, 1, 10, 0, 0, 1, 0, 80] ⟨"10.0.0.1".toList, 80⟩ :=
    @IsRequest.intro 0 1 0 80 [0] [1, 10, 0, 0, 1] _ rfl (@Address.v4 [10, 0, 0, 1] rfl)
  rw [handlePool_request (hwrites _) hreq rfl]
  simp [dial, hon, hdirect, finish, hwrites]

end WarpProxy.Socks
