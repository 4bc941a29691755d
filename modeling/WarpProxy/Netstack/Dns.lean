/-
# `WarpProxy.Netstack.Dns` — a resolve and its query

The handle of a query is the index of a slot, given out again once its result has
been taken, and `dns_pending` pairs it with the oneshot to answer.  Beside the
system runs a record of the queries (`Ledger`): for which resolve the query in a
slot was started, and what came of the query of each resolve.  The record looks at
the calls into the DNS socket; that the oneshots agree with it is what is proved.

    the slots in use are those of `dns_pending`      (`Routed`)
    a resolve waits, or has been told what came of it (`Told`)
    every run keeps both                             (`Asking.Reachable.directed`)

`serviceDnsAt` is `service_dns` over the vector it removes from; it is the loop of
`WarpProxy.Netstack.Actor`, which keeps what is left on one side (`serviceDnsAt_eq`).
-/
import WarpProxy.Lib.Slots
import WarpProxy.Netstack.Tables

namespace WarpProxy.Netstack

open Slots

section
variable {D : Deps}

/-! ## The loop over the vector -/

/-- `dns_pending.remove(i)` -/
def World.removeDns (w : World D) (i : Nat) : World D :=
  { w with actor := { w.actor with dnsPending := w.actor.dnsPending.eraseIdx i } }

/-- `service_dns` from index `i` on. -/
def World.serviceDnsAt (w : World D) (i : Nat) : Option (World D) :=
  if h : i < w.actor.dnsPending.length then
    match D.dns w.actor.sockets w.actor.dnsHandle with
    | none => none
    | some dns =>
        match D.getQueryResult dns (w.actor.dnsPending[i]).query with
        | none => none
        | some (result, dns) =>
            let reply := (w.actor.dnsPending[i]).reply
            let w' := w.setDns dns w.actor.dnsPending
            match result with
            | .ok addrs => ((w'.removeDns i).answer reply (firstAddress addrs)).serviceDnsAt i
            | .pending => w'.serviceDnsAt (i + 1)
            | .failed =>
                ((w'.removeDns i).answer reply (.error "resolution failed")).serviceDnsAt i
  else some w
termination_by w.actor.dnsPending.length - i
decreasing_by
  all_goals
    simp only [World.answer, World.removeDns, World.setDns, List.length_eraseIdx_of_lt h]
    omega

/-- `dns_pending` is written when the loop of `serviceDnsFrom` is over, and not read before. -/
theorem serviceDnsFrom_pending (pending kept : List (PendingDns D)) {w w' : World D}
    (ps : List (PendingDns D))
    (h : w' = { w with actor := { w.actor with dnsPending := ps } }) :
    w'.serviceDnsFrom kept pending = w.serviceDnsFrom kept pending := by
  induction pending generalizing kept w w' with
  | nil =>
      subst h
      rfl
  | cons p pending ih =>
      subst h
      rw [World.serviceDnsFrom, World.serviceDnsFrom]
      split
      · next hnone => simp only [hnone]
      · next dns hdns =>
          simp only [hdns]
          split
          · rfl
          · split <;> exact ih _ rfl

/-- Removing from the vector and keeping what is before the index are the same loop. -/
theorem serviceDnsAt_eq (pending kept : List (PendingDns D)) {w : World D}
    (h : w.actor.dnsPending = kept ++ pending) :
    w.serviceDnsAt kept.length = w.serviceDnsFrom kept pending := by
  induction pending generalizing kept w with
  | nil =>
      rw [World.serviceDnsAt, World.serviceDnsFrom, dif_neg]
      · rw [List.append_nil] at h
        rw [← h]
      · rw [h, List.append_nil]
        exact Nat.lt_irrefl _
  | cons p pending ih =>
      have hlt : kept.length < w.actor.dnsPending.length := by
        rw [h, List.length_append, List.length_cons]
        omega
      have hat : w.actor.dnsPending[kept.length] = p := by
        simp only [h, List.getElem_append_right (Nat.le_refl _), Nat.sub_self,
          List.getElem_cons_zero]
      have hdrop : w.actor.dnsPending.eraseIdx kept.length = kept ++ pending := by
        rw [h, List.eraseIdx_append_of_length_le (Nat.le_refl _), Nat.sub_self,
          List.eraseIdx_cons_zero]
      have hgone : ∀ dns (x : Except String IpAddr),
          (((w.setDns dns w.actor.dnsPending).removeDns kept.length).answer p.reply x).serviceDnsAt
            kept.length =
          ((w.setDns dns w.actor.dnsPending).answer p.reply x).serviceDnsFrom kept pending := by
        intro dns x
        rw [ih kept hdrop]
        refine serviceDnsFrom_pending _ _ (kept ++ pending) ?_
        simp only [World.answer, World.removeDns, World.setDns, hdrop]
      rw [World.serviceDnsAt, World.serviceDnsFrom, dif_pos hlt, hat]
      cases hdns : D.dns w.actor.sockets w.actor.dnsHandle with
      | none => rfl
      | some dns =>
          simp only
          cases hresult : D.getQueryResult dns p.query with
          | none => rfl
          | some call =>
              obtain ⟨result, dns'⟩ := call
              cases result with
              | ok addrs => exact hgone dns' (World.firstAddress addrs)
              | failed => exact hgone dns' (.error "resolution failed")
              | pending =>
                  have hnext := @ih (kept ++ [p]) (w.setDns dns' w.actor.dnsPending)
                    (by rw [List.append_assoc]; exact h)
                  rw [List.length_append, List.length_singleton] at hnext
                  exact hnext

theorem serviceDns_eq (w : World D) : w.serviceDns = w.serviceDnsAt 0 :=
  (serviceDnsAt_eq w.actor.dnsPending [] rfl).symm

/-! ## The slots of the DNS socket -/

/-- `start_query` uses the first free slot, growing if there is none; `get_query_result` panics
on a free slot, and frees the slot unless the query is pending.  A query handle is an index. -/
structure Deps.QueryLaws (D : Deps) (slots : D.Dns → List Bool) (index : D.Query → Nat) : Prop
    where
  index_inj : ∀ q q', index q = index q' → q = q'
  new : ∀ servers i, ¬ Occupied (slots (D.newDns servers)) i
  started : ∀ iface dns name iface' q dns',
    D.startQuery iface dns name = (iface', .ok (q, dns')) →
      index q = firstFree (slots dns) ∧ slots dns' = occupy (slots dns)
  panics : ∀ dns q, D.getQueryResult dns q = none ↔ ¬ Occupied (slots dns) (index q)
  pending : ∀ dns q dns', D.getQueryResult dns q = some (.pending, dns') →
    slots dns' = slots dns
  finished : ∀ dns q r dns', D.getQueryResult dns q = some (r, dns') → r ≠ .pending →
    slots dns' = release (slots dns) (index q)
  polled : ∀ now iface device s h dns dns', D.dns s h = some dns →
    D.dns (D.poll now iface device s).2.2 h = some dns' → slots dns' = slots dns

/-- The query is in a slot in use. -/
def Deps.InUse {D : Deps} (slots : D.Dns → List Bool) (index : D.Query → Nat) (dns : D.Dns)
    (q : D.Query) : Prop := Occupied (slots dns) (index q)

theorem Deps.QueryLaws.dnsLaws {slots : D.Dns → List Bool} {index : D.Query → Nat}
    (hI : D.QueryLaws slots index) : D.DnsLaws (Deps.InUse slots index) where
  result dns q h hnone := (hI.panics dns q).mp hnone h
  pending dns q dns' h q' hq' := by
    rw [Deps.InUse, hI.pending dns q dns' h]
    exact hq'
  finished dns q r dns' h q' hne hq' := by
    by_cases hr : r = .pending
    · rw [Deps.InUse, hI.pending dns q dns' (hr ▸ h)]
      exact hq'
    · rw [Deps.InUse, hI.finished dns q r dns' h hr, occupied_release_iff]
      exact ⟨fun heq => hne (hI.index_inj _ _ heq), hq'⟩
  started iface dns name iface' q dns' h := by
    obtain ⟨hindex, hslots⟩ := hI.started _ _ _ _ _ _ h
    refine ⟨?_, ?_, fun q' hq' => ?_⟩
    · rw [Deps.InUse, hindex]
      exact not_occupied_firstFree _
    · rw [Deps.InUse, hslots, occupied_occupy_iff]
      exact .inl hindex
    · rw [Deps.InUse, hslots, occupied_occupy_iff]
      exact .inr hq'
  polled now iface device s h dns dns' hdns hdns' q hq := by
    rw [Deps.InUse, hI.polled _ _ _ _ _ _ _ hdns hdns']
    exact hq

/-! ## What comes of a query -/

/-- What is sent to the asker, `none` while the query is pending. -/
def QueryResult.outcome : QueryResult → Option (Except String IpAddr)
  | .ok addrs => some (World.firstAddress addrs)
  | .pending => none
  | .failed => some (.error "resolution failed")

theorem QueryResult.outcome_none {r : QueryResult} : r.outcome = none ↔ r = .pending := by
  cases r <;> simp [QueryResult.outcome]

/-- The calls of `get_query_result` for these queries, one after the other. -/
def askAll : D.Dns → List (PendingDns D) → Option (List (PendingDns D × QueryResult) × D.Dns)
  | dns, [] => some ([], dns)
  | dns, p :: ps =>
      match D.getQueryResult dns p.query with
      | none => none
      | some (result, dns) =>
          match askAll dns ps with
          | none => none
          | some (calls, dns) => some ((p, result) :: calls, dns)

/-- Those whose query is still pending. -/
def stillPending (calls : List (PendingDns D × QueryResult)) : List (PendingDns D) :=
  (calls.filter fun call => call.2.outcome.isNone).map Prod.fst

/-- For which resolve the query in a slot was started, and what has come of the query of each
resolve. -/
structure Ledger where
  owner : Nat → Option ResolveId
  due : ResolveId → List (Except String IpAddr)

namespace Ledger
variable (L : Ledger)

/-- `r` is to be told `x`. -/
def tell (r : ResolveId) (x : Except String IpAddr) : Ledger :=
  { L with due := Function.update L.due r (L.due r ++ [x]) }

/-- The query in slot `i` was started for `r`. -/
def start (i : Nat) (r : ResolveId) : Ledger :=
  { L with owner := Function.update L.owner i (some r) }

/-- The query in slot `i` has come to `x`, and its slot is free. -/
def finish (i : Nat) (x : Except String IpAddr) : Ledger :=
  match L.owner i with
  | some r => { L.tell r x with owner := Function.update L.owner i none }
  | none => L

end Ledger

section
variable (index : D.Query → Nat)

/-- What the record says after these calls of `get_query_result`. -/
def Ledger.settle (L : Ledger) : List (PendingDns D × QueryResult) → Ledger
  | [] => L
  | (p, result) :: calls =>
      match result.outcome with
      | some x => (L.finish (index p.query) x).settle calls
      | none => L.settle calls

/-- After a `Resolve` command: a literal is told its address, and a query that does not start
its error. -/
def Ledger.resolve (L : Ledger) (w : World D) (name : String) (r : ResolveId) : Ledger :=
  match D.parseIp name with
  | some ip => L.tell r (.ok ip)
  | none =>
      match D.dns w.actor.sockets w.actor.dnsHandle with
      | none => L
      | some dns =>
          match D.startQuery w.actor.iface dns name with
          | (_, .ok (query, _)) => L.start (index query) r
          | (_, .error e) => L.tell r (.error ("dns query: " ++ e))

/-- After a step of the system. -/
def Ledger.after (L : Ledger) (s : System D) : Label → Ledger
  | .recv =>
      match s.queue with
      | .resolve name r :: _ => L.resolve index s.world name r
      | _ => L
  | .dns =>
      match D.dns s.world.actor.sockets s.world.actor.dnsHandle with
      | none => L
      | some dns =>
          match askAll dns s.world.actor.dnsPending with
          | none => L
          | some (calls, _) => L.settle index calls
  | _ => L

end

/-! ## What holds -/

/-- The slots in use are those of these queries, each started for the resolve it is paired
with. -/
structure Routed (slots : D.Dns → List Bool) (index : D.Query → Nat)
    (owner : Nat → Option ResolveId) (dns : D.Dns) (pending : List (PendingDns D)) : Prop where
  occupied : ∀ i, Occupied (slots dns) i ↔ i ∈ pending.map fun p => index p.query
  nodup : (pending.map fun p => index p.query).Nodup
  owner : ∀ p ∈ pending, owner (index p.query) = some p.reply

/-- The resolves of `waiting` have been told nothing, and every other one what came of it,
once. -/
structure Told (due : ResolveId → List (Except String IpAddr))
    (answers : ResolveId → Oneshot IpAddr) (waiting : List ResolveId) (next : ResolveId) : Prop
    where
  nodup : waiting.Nodup
  unborn : ∀ r, next ≤ r → due r = []
  waits : ∀ r ∈ waiting, r < next ∧ due r = [] ∧ (answers r).tx = true ∧
    (answers r).value = none
  told : ∀ r, r < next → r ∉ waiting → ∃ x, due r = [x] ∧ (answers r).tx = false ∧
    ((answers r).value = some x ∨ ((answers r).value = none ∧ (answers r).rx = false))

section
variable {slots : D.Dns → List Bool} {index : D.Query → Nat} {L : Ledger} {dns dns' : D.Dns}
  {pending : List (PendingDns D)}

/-- A pending query is in use, so asking for it does not panic. -/
theorem Routed.asks (hI : D.QueryLaws slots index) (hr : Routed slots index L.owner dns pending)
    {p : PendingDns D} (hp : p ∈ pending) :
    ∃ result dns', D.getQueryResult dns p.query = some (result, dns') := by
  have hocc : Occupied (slots dns) (index p.query) :=
    (hr.occupied _).mpr (List.mem_map_of_mem hp)
  have hsome : D.getQueryResult dns p.query ≠ none := fun hnone =>
    (hI.panics dns p.query).mp hnone hocc
  obtain ⟨⟨result, dns'⟩, hcall⟩ := Option.ne_none_iff_exists'.mp hsome
  exact ⟨result, dns', hcall⟩

/-- A new query, in the first free slot. -/
theorem Routed.start (hI : D.QueryLaws slots index) (hr : Routed slots index L.owner dns pending)
    {iface iface' : D.Iface} {name : String} {q : D.Query} {r : ResolveId}
    (hstart : D.startQuery iface dns name = (iface', .ok (q, dns'))) :
    Routed slots index (L.start (index q) r).owner dns' (pending ++ [⟨q, r⟩]) := by
  obtain ⟨hindex, hslots⟩ := hI.started _ _ _ _ _ _ hstart
  have hfresh : index q ∉ pending.map fun p => index p.query := by
    rw [← hr.occupied, hindex]
    exact not_occupied_firstFree _
  constructor
  · intro i
    rw [hslots, occupied_occupy_iff, hr.occupied, ← hindex, List.map_append, List.mem_append,
      or_comm]
    exact or_congr Iff.rfl List.mem_singleton.symm
  · rw [List.map_append]
    refine List.nodup_append.mpr ⟨hr.nodup, List.nodup_singleton _, ?_⟩
    rintro i hi j hj rfl
    have heq : i = index q := List.mem_singleton.mp hj
    exact hfresh (heq ▸ hi)
  · intro p hp
    rcases List.mem_append.mp hp with hp | hp
    · have hne : index p.query ≠ index q := fun heq =>
        hfresh (heq ▸ List.mem_map_of_mem (f := fun p => index p.query) hp)
      exact (Function.update_of_ne hne ..).trans (hr.owner p hp)
    · rw [List.mem_singleton.mp hp]
      exact Function.update_self ..

/-- A query whose result has been taken: its slot is free, and it was started for the resolve
that gets the answer. -/
theorem Routed.finish (hI : D.QueryLaws slots index) {kept : List (PendingDns D)}
    {p : PendingDns D} (hr : Routed slots index L.owner dns (kept ++ p :: pending))
    {result : QueryResult} (hcall : D.getQueryResult dns p.query = some (result, dns'))
    {x : Except String IpAddr} (hx : result.outcome = some x) :
    Routed slots index (L.finish (index p.query) x).owner dns' (kept ++ pending) ∧
      (L.finish (index p.query) x).due = (L.tell p.reply x).due := by
  have hne : result ≠ .pending := by
    rw [ne_eq, ← QueryResult.outcome_none, hx]
    exact Option.some_ne_none x
  have hperm : (kept ++ p :: pending).Perm (p :: (kept ++ pending)) := List.perm_middle
  obtain ⟨hnot, hnodup⟩ :=
    List.nodup_cons.mp ((hperm.map fun p => index p.query).nodup_iff.mp hr.nodup)
  have hnot : index p.query ∉ (kept ++ pending).map fun p => index p.query := hnot
  have howner : L.owner (index p.query) = some p.reply := hr.owner p (by simp)
  have hfinish : L.finish (index p.query) x =
      { L.tell p.reply x with owner := Function.update L.owner (index p.query) none } := by
    rw [Ledger.finish, howner]
  rw [hfinish]
  refine ⟨⟨fun i => ?_, hnodup, fun p' hp' => ?_⟩, rfl⟩
  · rw [hI.finished _ _ _ _ hcall hne, occupied_release_iff, hr.occupied,
      (hperm.map fun p => index p.query).mem_iff]
    constructor
    · rintro ⟨hi, hmem⟩
      exact (List.mem_cons.mp hmem).resolve_left hi
    · exact fun hmem => ⟨fun heq => hnot (heq ▸ hmem), List.mem_cons_of_mem _ hmem⟩
  · have hindex : index p'.query ≠ index p.query := fun heq =>
      hnot (heq ▸ List.mem_map_of_mem (f := fun p => index p.query) hp')
    refine (Function.update_of_ne hindex ..).trans (hr.owner p' ?_)
    exact hperm.mem_iff.mpr (List.mem_cons_of_mem _ hp')

end

section
variable {due : ResolveId → List (Except String IpAddr)} {answers : ResolveId → Oneshot IpAddr}
  {waiting waiting' : List ResolveId} {next : ResolveId}

theorem Told.perm (ht : Told due answers waiting next) (hperm : waiting.Perm waiting') :
    Told due answers waiting' next :=
  ⟨hperm.nodup_iff.mp ht.nodup, ht.unborn, fun r hr => ht.waits r (hperm.mem_iff.mpr hr),
    fun r hlt hr => ht.told r hlt fun hmem => hr (hperm.mem_iff.mp hmem)⟩

/-- A resolve that waits is told `x`, and waits no more. -/
theorem Told.tell {r : ResolveId} (ht : Told due answers (r :: waiting) next)
    (x : Except String IpAddr) : Told (Function.update due r (due r ++ [x]))
      (Function.update answers r ((answers r).send x)) waiting next := by
  obtain ⟨hlt, hnone, htx, hvalue⟩ := ht.waits r List.mem_cons_self
  obtain ⟨hnot, hnodup⟩ := List.nodup_cons.mp ht.nodup
  refine ⟨hnodup, fun r' hle => ?_, fun r' hr' => ?_, fun r' hlt' hr' => ?_⟩
  · have hne : r' ≠ r := by
      rintro rfl
      exact Nat.lt_irrefl _ (Nat.lt_of_lt_of_le hlt hle)
    rw [Function.update_of_ne hne]
    exact ht.unborn r' hle
  · have hne : r' ≠ r := fun heq => hnot (heq ▸ hr')
    rw [Function.update_of_ne hne, Function.update_of_ne hne]
    exact ht.waits r' (List.mem_cons_of_mem _ hr')
  · by_cases hr : r' = r
    · subst hr
      refine ⟨x, ?_, ?_, ?_⟩
      · rw [Function.update_self, hnone]
        rfl
      · rw [Function.update_self]
        rfl
      · rw [Function.update_self, Oneshot.send]
        cases hrx : (answers r').rx with
        | true => exact .inl rfl
        | false => exact .inr ⟨rfl, rfl⟩
    · rw [Function.update_of_ne hr, Function.update_of_ne hr]
      exact ht.told r' hlt' fun hmem => (List.mem_cons.mp hmem).elim hr hr'

/-- A resolve is called: its oneshot is new, and it waits. -/
theorem Told.call (ht : Told due answers waiting next) :
    Told due (Function.update answers next .new) (waiting ++ [next]) (next + 1) := by
  have hne : ∀ {r}, r ∈ waiting → r ≠ next := by
    rintro r hr rfl
    exact Nat.lt_irrefl _ (ht.waits r hr).1
  constructor
  · refine List.nodup_append.mpr ⟨ht.nodup, List.nodup_singleton _, ?_⟩
    intro r hr r' hr'
    rw [List.mem_singleton.mp hr']
    exact hne hr
  · exact fun r hle => ht.unborn r (Nat.le_of_succ_le hle)
  · intro r hr
    rcases List.mem_append.mp hr with hr | hr
    · rw [Function.update_of_ne (hne hr)]
      obtain ⟨hlt, hrest⟩ := ht.waits r hr
      exact ⟨Nat.lt_succ_of_lt hlt, hrest⟩
    · rw [List.mem_singleton.mp hr, Function.update_self]
      exact ⟨Nat.lt_succ_self next, ht.unborn next (Nat.le_refl _), rfl, rfl⟩
  · intro r hlt hr
    have hnew : r ≠ next := by
      rintro rfl
      exact hr (List.mem_append_right _ (List.mem_singleton_self r))
    have hold : r < next := Nat.lt_of_le_of_ne (Nat.le_of_lt_succ hlt) hnew
    rw [Function.update_of_ne hnew]
    exact ht.told r hold fun hmem => hr (List.mem_append_left _ hmem)

/-- The receiver of an answer goes. -/
theorem Told.resolved (ht : Told due answers waiting next) (r : ResolveId) :
    Told due (Function.update answers r { answers r with rx := false }) waiting next := by
  refine ⟨ht.nodup, ht.unborn, fun r' hr' => ?_, fun r' hlt hr' => ?_⟩
  · obtain ⟨hlt, hdue, hrest⟩ := ht.waits r' hr'
    by_cases hr : r' = r
    · subst hr
      rw [Function.update_self]
      exact ⟨hlt, hdue, hrest⟩
    · rw [Function.update_of_ne hr]
      exact ⟨hlt, hdue, hrest⟩
  · obtain ⟨x, hdue, htx, hvalue⟩ := ht.told r' hlt hr'
    refine ⟨x, hdue, ?_⟩
    by_cases hr : r' = r
    · subst hr
      rw [Function.update_self]
      exact ⟨htx, hvalue.imp_right fun h => ⟨h.1, rfl⟩⟩
    · rw [Function.update_of_ne hr]
      exact ⟨htx, hvalue⟩

end

/-! ## A pass -/

theorem stillPending_none {result : QueryResult} (h : result.outcome = none) (p : PendingDns D)
    (calls : List (PendingDns D × QueryResult)) :
    stillPending ((p, result) :: calls) = p :: stillPending calls := by
  rw [stillPending, List.filter_cons_of_pos (by rw [h]; rfl)]
  rfl

theorem stillPending_some {result : QueryResult} {x : Except String IpAddr}
    (h : result.outcome = some x) (p : PendingDns D)
    (calls : List (PendingDns D × QueryResult)) :
    stillPending ((p, result) :: calls) = stillPending calls := by
  rw [stillPending, List.filter_cons_of_neg (by rw [h]; exact Bool.false_ne_true)]
  rfl

/-- What the loop leaves from some index on: it asks for each query once, in order, and keeps
the pending ones. -/
structure DnsPassed (slots : D.Dns → List Bool) (index : D.Query → Nat) (L : Ledger)
    (queued : List ResolveId) (next : ResolveId) (dns dns' : D.Dns)
    (kept pending : List (PendingDns D)) (calls : List (PendingDns D × QueryResult))
    (w' : World D) : Prop where
  asked : askAll dns pending = some (calls, dns')
  each : calls.map Prod.fst = pending
  pending : w'.actor.dnsPending = kept ++ stillPending calls
  socket : D.dns w'.actor.sockets w'.actor.dnsHandle = some dns'
  routed : Routed slots index (L.settle index calls).owner dns' (kept ++ stillPending calls)
  told : Told (L.settle index calls).due w'.answers
    (queued ++ (kept ++ stillPending calls).map PendingDns.reply) next

theorem serviceDnsFrom_passed (hD : D.SocketSetLaws) {slots : D.Dns → List Bool}
    {index : D.Query → Nat} (hI : D.QueryLaws slots index) (pending kept : List (PendingDns D))
    {w : World D} {L : Ledger} {queued : List ResolveId} {next : ResolveId} {dns : D.Dns}
    (hs : InStep w) (hdns : D.dns w.actor.sockets w.actor.dnsHandle = some dns)
    (hr : Routed slots index L.owner dns (kept ++ pending))
    (ht : Told L.due w.answers (queued ++ (kept ++ pending).map PendingDns.reply) next) :
    ∃ w' calls dns', w.serviceDnsFrom kept pending = some w' ∧
      DnsPassed slots index L queued next dns dns' kept pending calls w' := by
  induction pending generalizing kept w L dns with
  | nil =>
      refine ⟨_, [], dns, rfl, rfl, rfl, (List.append_nil kept).symm, hdns, ?_, ?_⟩
      · exact hr
      · exact ht
  | cons p pending ih =>
      obtain ⟨result, dns₁, hcall⟩ := hr.asks hI (p := p) (by simp)
      have hset := setDns_inStep hD hs dns₁ w.actor.dnsPending
      have hsocket := setDns_dns hD hs dns₁ w.actor.dnsPending
      cases hx : result.outcome with
      | some x =>
          -- the slot is free, and the asker has its answer
          obtain ⟨hrouted, hdue⟩ := hr.finish hI hcall hx
          have hperm : (queued ++ (kept ++ p :: pending).map PendingDns.reply).Perm
              (p.reply :: (queued ++ (kept ++ pending).map PendingDns.reply)) := by
            refine (List.Perm.append_left queued ?_).trans List.perm_middle
            exact List.perm_middle.map PendingDns.reply
          have htold := (ht.perm hperm).tell x
          obtain ⟨w', calls, dns', hpass, hp⟩ := @ih kept
            ((w.setDns dns₁ w.actor.dnsPending).answer p.reply x)
            (L.finish (index p.query) x) dns₁ ⟨hset.tcp, hset.dns⟩ hsocket hrouted
            (by rw [hdue]; exact htold)
          refine ⟨w', (p, result) :: calls, dns', ?_, ?_, congrArg (p :: ·) hp.each, ?_,
            hp.socket, ?_, ?_⟩
          · rw [World.serviceDnsFrom]
            simp only [hdns, hcall]
            cases result with
            | ok addrs =>
                cases hx
                exact hpass
            | failed =>
                cases hx
                exact hpass
            | pending => cases hx
          · rw [askAll, hcall]
            simp only [hp.asked]
          · rw [stillPending_some hx]
            exact hp.pending
          · rw [stillPending_some hx, Ledger.settle, hx]
            exact hp.routed
          · rw [stillPending_some hx, Ledger.settle, hx]
            exact hp.told
      | none =>
          have hresult : result = .pending := QueryResult.outcome_none.mp hx
          have hmove : kept ++ p :: pending = (kept ++ [p]) ++ pending := by
            rw [List.append_assoc]
            rfl
          have hrouted : Routed slots index L.owner dns₁ (kept ++ [p] ++ pending) := by
            refine ⟨fun i => ?_, hmove ▸ hr.nodup, hmove ▸ hr.owner⟩
            rw [hI.pending _ _ _ (hresult ▸ hcall), ← hmove]
            exact hr.occupied i
          obtain ⟨w', calls, dns', hpass, hp⟩ := @ih (kept ++ [p])
            (w.setDns dns₁ w.actor.dnsPending) L dns₁ hset hsocket hrouted (hmove ▸ ht)
          have hstill : kept ++ stillPending ((p, result) :: calls) =
              kept ++ [p] ++ stillPending calls := by
            rw [stillPending_none hx, List.append_assoc]
            rfl
          refine ⟨w', (p, result) :: calls, dns', ?_, ?_, congrArg (p :: ·) hp.each, ?_,
            hp.socket, ?_, ?_⟩
          · rw [World.serviceDnsFrom]
            simp only [hdns, hcall, hresult]
            exact hpass
          · rw [askAll, hcall]
            simp only [hp.asked]
          · rw [hstill]
            exact hp.pending
          · rw [hstill, Ledger.settle, hx]
            exact hp.routed
          · rw [hstill, Ledger.settle, hx]
            exact hp.told

/-! ## The rest of the actor -/

/-- A function that has nothing to do with DNS. -/
structure DnsAside (w w' : World D) : Prop where
  socket : ∀ dns, D.dns w.actor.sockets w.actor.dnsHandle = some dns →
    D.dns w'.actor.sockets w'.actor.dnsHandle = some dns
  pending : w'.actor.dnsPending = w.actor.dnsPending
  answers : w'.answers = w.answers

theorem DnsAside.trans {w w' w'' : World D} (h : DnsAside w w') (h' : DnsAside w' w'') :
    DnsAside w w'' :=
  ⟨fun dns hdns => h'.socket dns (h.socket dns hdns), h'.pending.trans h.pending,
    h'.answers.trans h.answers⟩

/-- A write to a slot that is not the DNS socket's. -/
theorem Rewrote.aside {w w' : World D} {h : Handle} {x : Option (D.Tcp ⊕ D.Dns)}
    (hr : Rewrote w w' h x) (hh : h ≠ w.actor.dnsHandle) (hanswers : w'.answers = w.answers) :
    DnsAside w w' := by
  refine ⟨fun dns hdns => ?_, hr.dnsPending, hanswers⟩
  rw [hr.dnsHandle, dns_slot, hr.slot_ne _ (Ne.symm hh), ← dns_slot]
  exact hdns

theorem dropConn_answers (w : World D) (conn : Conn) : (w.dropConn conn).answers = w.answers := by
  rw [World.dropConn]
  split <;> rfl

theorem insertConn_answers (w : World D) (h : Handle) (conn : Conn) :
    (w.insertConn h conn).answers = w.answers := by
  rw [World.insertConn]
  cases w.actor.conns.lookup h with
  | none => rfl
  | some old => exact dropConn_answers w old

theorem handleConnect_answers {w w' : World D} {remote : SocketAddr} {c : ConnId}
    (h : w.handleConnect remote c = some w') : w'.answers = w.answers := by
  rw [World.handleConnect] at h
  split at h
  · cases h
  · split at h
    · cases h
      exact insertConn_answers ..
    · split at h
      · cases h
      · cases h
        rfl

theorem serviceSocket_answers {w w' : World D} {h : Handle} {seams : List Nat}
    (hw : w.serviceSocket h seams = some w') : w'.answers = w.answers := by
  have hback : ∀ v : Visit D, (w.writeBack h v).answers = w.answers := fun v => by
    simp only [World.writeBack]
    cases v.outcome <;> rfl
  rw [World.serviceSocket] at hw
  split at hw
  · simp only at hw
    split at hw
    · rw [World.removeConn] at hw
      split at hw
      · cases hw
      · cases hw
        exact (dropConn_answers ..).trans (hback _)
    · cases hw
      exact hback _
  · cases hw

theorem serviceSockets_aside_dns (hD : D.SocketSetLaws) {w w' : World D} (hin : InStep w)
    {order : List (Handle × List Nat)} (hw : w.serviceSockets order = some w') :
    DnsAside w w' := by
  obtain ⟨dns, hdns⟩ := hin.dns_some
  have hall : DnsAside w w' := by
    refine serviceSockets_invariant (fun w' => DnsAside w w') order ?_
      ⟨fun _ h => h, rfl, rfl⟩ hw
    intro w₁ h seams w₂ _ ha hturn
    obtain ⟨sock, conn, hsock, hconn, -⟩ := serviceSocket_cases hturn
    obtain ⟨w₂', hw₂, -, hr⟩ := serviceSocket_rewrote hD hsock hconn seams
    rw [hturn, Option.some.injEq] at hw₂
    subst hw₂
    refine ha.trans (hr.aside ?_ (serviceSocket_answers hturn))
    -- the slot of the turn has a TCP socket
    rintro rfl
    have hslot := ha.socket dns hdns
    rw [dns_slot] at hslot
    rw [tcp_slot, hslot] at hsock
    cases hsock
  exact hall

theorem handleCmd_aside_dns (hD : D.SocketSetLaws) {w w' : World D} (hin : InStep w) {cmd : Cmd}
    (hcmd : ∀ name r, cmd ≠ .resolve name r) (hw : w.handleCmd cmd = some w') :
    DnsAside w w' := by
  cases cmd with
  | inbound pkt =>
      cases hw
      exact ⟨fun _ h => h, rfl, rfl⟩
  | send h data o =>
      cases hw
      rw [World.handleSend]
      split <;> exact ⟨fun _ h => h, rfl, rfl⟩
  | close h o =>
      cases hw
      rw [World.handleClose]
      split <;> exact ⟨fun _ h => h, rfl, rfl⟩
  | resolve name r => exact absurd rfl (hcmd name r)
  | connect remote c =>
      obtain ⟨w'', x, hw'', hr, -⟩ := handleConnect_rewrote hD w remote c
      rw [World.handleCmd, hw'', Option.some.injEq] at hw
      subst hw
      refine hr.aside ?_ (handleConnect_answers hw'')
      intro heq
      obtain ⟨dns, hdns⟩ := hin.dns_some
      rw [dns_slot, ← heq, nextSlot_free hD] at hdns
      cases hdns

/-! ## Every run -/

/-- The number of the resolve that a command is. -/
def Cmd.resolveId : Cmd → Option ResolveId
  | .resolve _ r => some r
  | _ => none

/-- The resolves that have not been answered: in the queue, and in `dns_pending`. -/
def System.waiting (s : System D) : List ResolveId :=
  s.queue.filterMap Cmd.resolveId ++ s.world.actor.dnsPending.map PendingDns.reply

structure Directed (slots : D.Dns → List Bool) (index : D.Query → Nat) (L : Ledger)
    (s : System D) : Prop where
  routed : ∃ dns, D.dns s.world.actor.sockets s.world.actor.dnsHandle = some dns ∧
    Routed slots index L.owner dns s.world.actor.dnsPending
  told : Told L.due s.world.answers s.waiting s.nextResolve

/-- The system, and the record of its queries. -/
structure Asking (D : Deps) where
  sys : System D
  ledger : Ledger

def Asking.step (index : D.Query → Nat) (t : Asking D) (l : Label) : Option (Asking D) :=
  (t.sys.step l).map fun s => ⟨s, t.ledger.after index t.sys l⟩

/-- `netstack::spawn`, with no query started. -/
def Asking.init (s : System D) : Asking D := ⟨s, ⟨fun _ => none, fun _ => []⟩⟩

abbrev Asking.Reachable (index : D.Query → Nat) (t : Asking D) : Prop :=
  Transition.Reachable (fun t l t' => Asking.step index t l = some t')
    (fun t => ∃ s, Init s ∧ t = .init s) t

section
variable {slots : D.Dns → List Bool} {index : D.Query → Nat} {L : Ledger}

/-- A `Resolve` command: it is answered, or its query joins those pending. -/
theorem handleResolve_directed (hD : D.SocketSetLaws) (hI : D.QueryLaws slots index)
    {w w' : World D} {name : String} {r : ResolveId} {queued : List ResolveId}
    {next : ResolveId} {dns : D.Dns} (hin : InStep w)
    (hdns : D.dns w.actor.sockets w.actor.dnsHandle = some dns)
    (hr : Routed slots index L.owner dns w.actor.dnsPending)
    (ht : Told L.due w.answers
      (r :: (queued ++ w.actor.dnsPending.map PendingDns.reply)) next)
    (hw : w.handleResolve name r = some w') :
    (∃ dns', D.dns w'.actor.sockets w'.actor.dnsHandle = some dns' ∧
      Routed slots index (L.resolve index w name r).owner dns' w'.actor.dnsPending) ∧
    Told (L.resolve index w name r).due w'.answers
      (queued ++ w'.actor.dnsPending.map PendingDns.reply) next := by
  rw [World.handleResolve] at hw
  rw [Ledger.resolve]
  cases hparse : D.parseIp name with
  | some ip =>
      rw [hparse, Option.some.injEq] at hw
      subst hw
      exact ⟨⟨dns, hdns, hr⟩, ht.tell (.ok ip)⟩
  | none =>
      simp only [hparse, hdns] at hw ⊢
      rcases hstart : D.startQuery w.actor.iface dns name with ⟨iface, e | ⟨q, dns'⟩⟩
      · simp only [hstart, Option.some.injEq] at hw ⊢
        subst hw
        exact ⟨⟨dns, hdns, hr⟩, ht.tell (.error ("dns query: " ++ e))⟩
      · simp only [hstart, Option.some.injEq] at hw ⊢
        subst hw
        have hiface : InStep { w with actor := { w.actor with iface := iface } } :=
          ⟨hin.tcp, hin.dns⟩
        refine ⟨⟨dns', ?_, ?_⟩, ht.perm ?_⟩
        · exact setDns_dns hD hiface dns' (w.actor.dnsPending ++ [⟨q, r⟩])
        · exact hr.start hI hstart
        · let p : PendingDns D := ⟨q, r⟩
          have hlast : (queued ++ (w.actor.dnsPending ++ [p]).map PendingDns.reply) =
              (queued ++ w.actor.dnsPending.map PendingDns.reply) ++ [r] := by
            rw [List.map_append, List.append_assoc]
            rfl
          rw [hlast]
          exact (List.perm_append_singleton r _).symm

/-- Neither the DNS socket nor a resolve is touched. -/
theorem Directed.aside {s t : System D} (ha : DnsAside s.world t.world)
    (hwaiting : t.queue.filterMap Cmd.resolveId = s.queue.filterMap Cmd.resolveId)
    (hnext : t.nextResolve = s.nextResolve) (hd : Directed slots index L s) :
    Directed slots index L t := by
  obtain ⟨dns, hdns, hr⟩ := hd.routed
  refine ⟨⟨dns, ha.socket dns hdns, ha.pending ▸ hr⟩, ?_⟩
  rw [System.waiting, hwaiting, ha.pending, ha.answers, hnext]
  exact hd.told

/-- The async side calls resolves and takes answers. -/
theorem Directed.async {s t : System D} {l : Label} (h : s.stepAsync l = some t)
    (hd : Directed slots index L s) : Directed slots index L t := by
  have hactor := (stepAsync_actor h).1
  have hsame : t.world.answers = s.world.answers → t.nextResolve = s.nextResolve →
      t.queue.filterMap Cmd.resolveId = s.queue.filterMap Cmd.resolveId →
      Directed slots index L t := by
    intro hanswers hnext hwaiting
    refine hd.aside ⟨fun dns hdns => ?_, by rw [hactor], hanswers⟩ hwaiting hnext
    rw [hactor]
    exact hdns
  have hqueue : ∀ cmd, cmd.resolveId = none →
      (s.queue ++ [cmd]).filterMap Cmd.resolveId = s.queue.filterMap Cmd.resolveId := by
    intro cmd hcmd
    rw [List.filterMap_append, List.filterMap_cons_none hcmd]
    exact List.append_nil _
  cases AsyncStep.of_eq h with
  | resolve name =>
      refine ⟨hd.routed, ?_⟩
      refine hd.told.call.perm ?_
      have hlast : (s.queue ++ [Cmd.resolve name s.nextResolve]).filterMap Cmd.resolveId =
          s.queue.filterMap Cmd.resolveId ++ [s.nextResolve] := List.filterMap_append ..
      show (s.waiting ++ [s.nextResolve]).Perm
        ((s.queue ++ [Cmd.resolve name s.nextResolve]).filterMap Cmd.resolveId ++
          s.world.actor.dnsPending.map PendingDns.reply)
      rw [hlast, System.waiting, List.append_assoc, List.append_assoc]
      exact List.Perm.append_left _ List.perm_append_comm
  | @resolved r _ => exact ⟨hd.routed, hd.told.resolved r⟩
  | inbound | connect | send | close | dropWriter => exact hsame rfl rfl (hqueue _ rfl)
  | _ => exact hsame rfl rfl rfl

theorem Init.directed (hD : D.SocketSetLaws) (hI : D.QueryLaws slots index) {s : System D}
    (h : Init s) :
    Directed slots index (Asking.init s).ledger s := by
  obtain ⟨mtu, v4, v6, rfl⟩ := h
  have hsocket : D.dns (System.init D mtu v4 v6).world.actor.sockets
      (System.init D mtu v4 v6).world.actor.dnsHandle = some (D.newDns [.v4 0x01010101]) := by
    refine (dns_slot _ _ _).mpr ?_
    exact (hD.get_add ..).trans (if_pos rfl)
  refine ⟨⟨_, hsocket, ⟨fun i => ?_, List.nodup_nil, fun p hp => ?_⟩⟩, ?_⟩
  · exact ⟨fun hocc => absurd hocc (hI.new _ i), fun hmem => absurd hmem List.not_mem_nil⟩
  · exact absurd hp List.not_mem_nil
  · exact ⟨List.nodup_nil, fun _ _ => rfl, fun r hr => absurd hr List.not_mem_nil,
      fun r hlt => absurd hlt (Nat.not_lt_zero r)⟩

section
variable (hD : D.SocketSetLaws) (hP : D.PollLaws) (hI : D.QueryLaws slots index)
include hD hP hI

/-- **One step**: the oneshots go on agreeing with the record. -/
theorem Directed.step {s t : System D} {l : Label} (hr : Reachable s) (h : Step s l t)
    (hd : Directed slots index L s) : Directed slots index (L.after index s l) t := by
  have ht : Reachable t := hr.tail h
  have hin := ((hr.runs hD hP hI.dnsLaws).world.sound hD hP hI.dnsLaws).inStep
  have hrunning := (ht.runs hD hP hI.dnsLaws).running
  obtain ⟨dns, hdns, hrouted⟩ := hd.routed
  rcases step_cases h with h | h
  · cases ActorStep.of_eq h with
    | poll now =>
        have hsome := hP.dns_poll now s.world.actor.iface s.world.actor.device
          s.world.actor.sockets s.world.actor.dnsHandle
        rw [hdns, Option.isSome_some] at hsome
        obtain ⟨dns', hdns'⟩ := Option.isSome_iff_exists.mp hsome
        refine ⟨⟨dns', hdns', ⟨fun i => ?_, hrouted.nodup, hrouted.owner⟩⟩, hd.told⟩
        rw [hI.polled _ _ _ _ _ _ _ hdns hdns']
        exact hrouted.occupied i
    | @service order _ horder =>
        cases hpass : s.world.serviceSockets order with
        | none => rw [hpass] at hrunning; exact absurd rfl hrunning
        | some w => exact hd.aside (serviceSockets_aside_dns hD hin hpass) rfl rfl
    | dns =>
        obtain ⟨w', calls, dns', hpass, hp⟩ := serviceDnsFrom_passed hD hI
          s.world.actor.dnsPending [] hin hdns hrouted hd.told
        have hafter : L.after index s .dns = L.settle index calls := by
          simp only [Ledger.after, hdns, hp.asked]
        have hpassed : s.world.serviceDns = some w' := hpass
        rw [hafter, hpassed]
        have hpending : w'.actor.dnsPending = stillPending calls := hp.pending
        refine ⟨⟨dns', hp.socket, hpending ▸ hp.routed⟩, ?_⟩
        show Told _ w'.answers (_ ++ w'.actor.dnsPending.map PendingDns.reply) _
        rw [hpending]
        exact hp.told
    | @recv cmd queue hq =>
        cases hw : s.world.handleCmd cmd with
        | none => rw [hw] at hrunning; exact absurd rfl hrunning
        | some w =>
            by_cases hcmd : ∃ name r, cmd = .resolve name r
            · obtain ⟨name, r, rfl⟩ := hcmd
              have hafter : L.after index s .recv = L.resolve index s.world name r := by
                simp only [Ledger.after, hq]
              have hwaiting : s.waiting = r :: (queue.filterMap Cmd.resolveId ++
                  s.world.actor.dnsPending.map PendingDns.reply) := by
                rw [System.waiting, hq]
                rfl
              have hresolved := handleResolve_directed hD hI hin hdns hrouted
                (hwaiting ▸ hd.told) hw
              rw [hafter]
              exact ⟨hresolved.1, hresolved.2⟩
            · have hnot : ∀ name r, cmd ≠ .resolve name r :=
                fun name r heq => hcmd ⟨name, r, heq⟩
              have hnone : cmd.resolveId = none := by
                cases cmd with
                | resolve name r => exact absurd rfl (hnot name r)
                | _ => rfl
              have hafter : L.after index s .recv = L := by
                simp only [Ledger.after, hq]
                cases cmd with
                | resolve name r => exact absurd rfl (hnot name r)
                | _ => rfl
              rw [hafter]
              refine hd.aside (handleCmd_aside_dns hD hin hnot hw) ?_ rfl
              rw [hq, List.filterMap_cons_none hnone]
              rfl
    | timeout | drained =>
        exact Directed.aside (L := L) (s := s) ⟨fun _ h => h, rfl, rfl⟩ rfl rfl hd
  · have hafter : L.after index s l = L := by
      cases l with
      | recv | dns => cases h
      | _ => rfl
    rw [hafter]
    exact hd.async h

theorem Asking.Reachable.directed {t : Asking D} (h : t.Reachable index) :
    Netstack.Reachable t.sys ∧ Directed slots index t.ledger t.sys := by
  refine Transition.Reachable.invariant (fun t : Asking D => Netstack.Reachable t.sys ∧
    Directed slots index t.ledger t.sys) h ?_ ?_
  · rintro t ⟨s, hs, rfl⟩
    exact ⟨.init hs, Init.directed hD hI hs⟩
  · intro t l t' ht hstep
    rw [Asking.step, Option.map_eq_some_iff] at hstep
    obtain ⟨s', hs', rfl⟩ := hstep
    exact ⟨ht.1.tail hs', ht.2.step hD hP hI ht.1 hs'⟩

/-- **Every resolve gets the answer of its own query.**  Whatever is called and in whatever
order the queries come to an end, the handles in `dns_pending` are the slots in use, each once;
a resolve waits, or has been told once what came of the query that was started for it; a literal
is answered when its command is handled; and a pass asks for each query once without a panic,
and leaves the pending ones in order. -/
theorem dns_answers {t : Asking D} (h : t.Reachable index) :
    (t.sys.world.actor.dnsPending.map fun p => index p.query).Nodup ∧
    (∃ dns, D.dns t.sys.world.actor.sockets t.sys.world.actor.dnsHandle = some dns ∧
      (∀ i, Occupied (slots dns) i ↔
        i ∈ t.sys.world.actor.dnsPending.map fun p => index p.query) ∧
      ∃ w' calls dns', t.sys.world.serviceDnsAt 0 = some w' ∧
        (∀ s', t.sys.step .dns = some s' → s'.world = w') ∧
        askAll dns t.sys.world.actor.dnsPending = some (calls, dns') ∧
        calls.map Prod.fst = t.sys.world.actor.dnsPending ∧
        w'.actor.dnsPending = stillPending calls) ∧
    (∀ r, r < t.sys.nextResolve →
      (r ∈ t.sys.waiting ∧ t.ledger.due r = [] ∧ (t.sys.world.answers r).tx = true ∧
        (t.sys.world.answers r).value = none) ∨
      (r ∉ t.sys.waiting ∧ ∃ x, t.ledger.due r = [x] ∧ (t.sys.world.answers r).tx = false ∧
        ((t.sys.world.answers r).value = some x ∨
          ((t.sys.world.answers r).value = none ∧ (t.sys.world.answers r).rx = false)))) ∧
    (∀ name r queue ip t', t.sys.queue = .resolve name r :: queue → D.parseIp name = some ip →
      t.step index .recv = some t' →
        t'.ledger.due r = [.ok ip] ∧ t'.sys.world = t.sys.world.answer r (.ok ip)) ∧
    t.sys.pc ≠ .panicked := by
  obtain ⟨hr, hd⟩ := h.directed hD hP hI
  obtain ⟨dns, hdns, hrouted⟩ := hd.routed
  have hruns := hr.runs hD hP hI.dnsLaws
  have hin := (hruns.world.sound hD hP hI.dnsLaws).inStep
  obtain ⟨w', calls, dns', hpass, hp⟩ := serviceDnsFrom_passed hD hI
    t.sys.world.actor.dnsPending [] hin hdns hrouted hd.told
  have hpass : t.sys.world.serviceDns = some w' := hpass
  refine ⟨hrouted.nodup, ⟨dns, hdns, hrouted.occupied, w', calls, dns', ?_, ?_, hp.asked, hp.each,
    hp.pending⟩, fun r hlt => ?_, ?_, hruns.running⟩
  · rw [← serviceDns_eq]
    exact hpass
  · intro s' hs'
    rcases step_cases hs' with hs' | hs'
    · cases ActorStep.of_eq hs' with
      | dns =>
          rw [hpass]
          rfl
    · cases hs'
  · by_cases hwaits : r ∈ t.sys.waiting
    · exact .inl ⟨hwaits, (hd.told.waits r hwaits).2⟩
    · exact .inr ⟨hwaits, hd.told.told r hlt hwaits⟩
  · intro name r queue ip t' hqueue hip hstep
    rw [Asking.step, Option.map_eq_some_iff] at hstep
    obtain ⟨s', hs', rfl⟩ := hstep
    have hwaits : r ∈ t.sys.waiting := by
      rw [System.waiting, hqueue]
      exact List.mem_append_left _ List.mem_cons_self
    have hafter : t.ledger.after index t.sys .recv = t.ledger.tell r (.ok ip) := by
      simp only [Ledger.after, hqueue, Ledger.resolve, hip]
    constructor
    · rw [hafter]
      refine (Function.update_self ..).trans ?_
      rw [(hd.told.waits r hwaits).2.1]
      rfl
    · rcases step_cases hs' with hs' | hs'
      · cases ActorStep.of_eq hs' with
        | @recv cmd queue' hq =>
            obtain ⟨rfl, rfl⟩ := List.cons_eq_cons.mp (hqueue.symm.trans hq)
            have hcmd : t.sys.world.handleCmd (.resolve name r) =
                some (t.sys.world.answer r (.ok ip)) := by
              rw [World.handleCmd, World.handleResolve, hip]
            rw [hcmd]
            rfl
      · cases hs'

end

end

end

/-! ## A small netstack that resolves -/

namespace Toy

/-- A query in the first free slot. -/
def ask : Dns → Nat × Dns
  | [] => (0, [some .pending])
  | none :: dns => (0, some .pending :: dns)
  | some r :: dns => ((ask dns).1 + 1, some r :: (ask dns).2)

/-- A packet of a slot and the kind 9 completes a query, with at most one address. -/
def complete (s : Slots) : List UInt8 → Slots
  | h :: 9 :: q :: addrs =>
      match get s h.toNat with
      | some (.inr dns) =>
          match dns[q.toNat]? with
          | some (some _) => set s h.toNat (.inr (dns.set q.toNat
              (some (.ok (addrs.map fun a => .v4 a.toNat)))))
          | _ => s
      | _ => s
  | _ => s

end Toy

/-- The small netstack, whose polls see the answers to queries after the segments. -/
def Deps.toyDns : Deps :=
  { Deps.toy with
    poll := fun now iface device s =>
      let polled := Deps.toy.poll now iface device s
      (polled.1, polled.2.1, device.rx.foldl Toy.complete polled.2.2)
    startQuery := fun _ dns name =>
      ((), if name = "" then .error "invalid name" else .ok (Toy.ask dns))
    parseIp := fun name => if name = "1.0.0.1" then some (.v4 0x01000001) else none }

namespace Toy

theorem ask_spec (dns : Dns) : (ask dns).1 = firstFree (dns.map Option.isSome) ∧
    (ask dns).2.map Option.isSome = occupy (dns.map Option.isSome) := by
  induction dns with
  | nil => exact ⟨rfl, rfl⟩
  | cons q dns ih =>
      cases q with
      | none => exact ⟨rfl, rfl⟩
      | some r => exact ⟨congrArg (· + 1) ih.1, congrArg (true :: ·) ih.2⟩

theorem occupied_iff (dns : Dns) (q : Nat) :
    Occupied (dns.map Option.isSome) q ↔ dns[q]?.getD none ≠ none := by
  rw [Occupied, List.getElem?_map]
  cases dns[q]? with
  | none => simp
  | some r => cases r <;> simp

/-- What is in a slot: a TCP socket, or a DNS socket with these slots in use. -/
def shape : Option (Tcp ⊕ Dns) → Option (Option (List Bool))
  | some (.inl _) => some none
  | some (.inr dns) => some (some (dns.map Option.isSome))
  | none => none

theorem Kept.shape {s s' : Slots} {h : Handle} (hk : Kept s s' h) :
    Toy.shape (get s' h) = Toy.shape (get s h) := by
  rcases hk with ⟨sock, sock', hs, hs', -⟩ | hsame
  · rw [hs, hs']
    rfl
  · rw [hsame]

theorem shape_complete (s : Slots) (pkt : List UInt8) (h : Handle) :
    shape (get (complete s pkt) h) = shape (get s h) := by
  unfold complete
  split
  · next k q addrs =>
      split
      · next dns hdns =>
          split
          · next r hr =>
              rw [get_set _ _ _ _ (by rw [hdns]; exact Option.some_ne_none _)]
              split
              · next hk =>
                  obtain ⟨hlt, hat⟩ := List.getElem?_eq_some_iff.mp hr
                  have hlt' : q.toNat < (dns.map Option.isSome).length := by
                    rw [List.length_map]
                    exact hlt
                  have hat' : (dns.map Option.isSome)[q.toNat] = true := by
                    rw [List.getElem_map, hat]
                    rfl
                  have hsame : (dns.map Option.isSome).set q.toNat true =
                      dns.map Option.isSome :=
                    (congrArg (List.set _ _) hat'.symm).trans (List.set_getElem_self hlt')
                  rw [hk, hdns, shape, List.map_set]
                  exact congrArg (some ∘ some) hsame
              · rfl
          · rfl
      · rfl
  · rfl

theorem shape_polled (pkts : List (List UInt8)) (s : Slots) (h : Handle) :
    shape (get (pkts.foldl complete (pkts.foldl deliver s)) h) = shape (get s h) := by
  have hcomplete : ∀ s : Slots, shape (get (pkts.foldl complete s) h) = shape (get s h) := by
    induction pkts with
    | nil => exact fun _ => rfl
    | cons pkt pkts ih => exact fun s => (ih _).trans (shape_complete s pkt h)
  exact (hcomplete _).trans (get_delivers pkts s h).shape

end Toy

namespace Deps

theorem toyDns_tcp (s : Toy.Slots) (h : Handle) :
    (Deps.toyDns.tcp s h).isSome = true ↔ Toy.shape (Toy.get s h) = some none := by
  have hget : Deps.toyDns.get s h = Toy.get s h := rfl
  simp only [Deps.tcp, hget]
  cases Toy.get s h with
  | none => simp [Toy.shape]
  | some x =>
      cases x with
      | inl sock => exact ⟨fun _ => rfl, fun _ => rfl⟩
      | inr dns => simp [Toy.shape]

theorem toyDns_dns (s : Toy.Slots) (h : Handle) :
    (Deps.toyDns.dns s h).map (fun dns => List.map Option.isSome dns) =
      (Toy.shape (Toy.get s h)).bind id := by
  have hget : Deps.toyDns.get s h = Toy.get s h := rfl
  simp only [Deps.dns, hget]
  cases Toy.get s h with
  | none => rfl
  | some x => cases x <;> rfl

theorem toyDns_socketSetLaws : Deps.toyDns.SocketSetLaws where
  get_new := Deps.toy_socketSetLaws.get_new
  add_free := Deps.toy_socketSetLaws.add_free
  add_lowest := Deps.toy_socketSetLaws.add_lowest
  get_add := Deps.toy_socketSetLaws.get_add
  get_set := Deps.toy_socketSetLaws.get_set
  get_remove := Deps.toy_socketSetLaws.get_remove

theorem toyDns_pollLaws : Deps.toyDns.PollLaws where
  tcp_poll _ _ device s h := by
    refine Bool.eq_iff_iff.mpr ((toyDns_tcp _ h).trans (Iff.trans ?_ (toyDns_tcp s h).symm))
    exact iff_of_eq (congrArg (· = some none) (Toy.shape_polled device.rx s h))
  dns_poll _ _ device s h := by
    have hsome : ∀ s : Toy.Slots, (Deps.toyDns.dns s h).isSome =
        ((Toy.shape (Toy.get s h)).bind id).isSome := fun s =>
      Option.isSome_map.symm.trans (congrArg Option.isSome (toyDns_dns s h))
    refine (hsome _).trans (Eq.trans ?_ (hsome s).symm)
    exact congrArg (fun x => (Option.bind x id).isSome) (Toy.shape_polled device.rx s h)

theorem toyDns_queryLaws : Deps.toyDns.QueryLaws (List.map Option.isSome) id where
  index_inj _ _ h := h
  new _ i := not_occupied_nil i
  started iface dns name iface' q dns' h := by
    obtain ⟨hfst, hsnd⟩ := Toy.ask_spec dns
    simp only [Deps.toyDns] at h
    split at h
    · cases h
    · have hask : Toy.ask dns = (q, dns') := Except.ok.inj (Prod.mk.inj h).2
      rw [hask] at hfst hsnd
      exact ⟨hfst, hsnd⟩
  panics dns q := by
    refine Iff.trans ?_ (not_congr (Toy.occupied_iff dns q)).symm
    simp only [Deps.toyDns, Deps.toy]
    split
    · next hr => simp [hr]
    · next hr => simp [hr]
    · next hr => simp [hr]
  pending dns q dns' h := by
    simp only [Deps.toyDns, Deps.toy] at h
    split at h
    · cases h
      rfl
    · next r hne hr =>
        cases h
        exact absurd rfl hne
    · cases h
  finished dns q r dns' h hr := by
    simp only [Deps.toyDns, Deps.toy] at h
    split at h
    · cases h
      exact absurd rfl hr
    · cases h
      exact List.map_set ..
    · cases h
  polled _ _ device s h dns dns' hdns hdns' := by
    have hsome := toyDns_dns s h
    have hsome' := toyDns_dns (device.rx.foldl Toy.complete (device.rx.foldl Toy.deliver s)) h
    have hsame := hsome'.trans ((congrArg (Option.bind · id)
      (Toy.shape_polled device.rx s h)).trans hsome.symm)
    have hmap := (congrArg (Option.map (List.map Option.isSome)) hdns').symm.trans
      (hsame.trans (congrArg (Option.map (List.map Option.isSome)) hdns))
    exact Option.some.inj hmap

end Deps

/-- Two names, and the second is answered first; its slot goes to a third, which the answer of
the first does not reach, and a literal is answered at once. -/
theorem dns_answers_reordered : ∃ t : Asking Deps.toyDns,
    (t.sys.world.answers 0).value = some (.ok (.v4 7)) ∧
    (t.sys.world.answers 1).value = some (.ok (.v4 9)) ∧
    (t.sys.world.answers 3).value = some (.ok (.v4 0x01000001)) ∧
    (t.sys.world.actor.dnsPending.map fun p => id p.query).Nodup ∧ 2 ∈ t.sys.waiting := by
  let labels : List Label :=
    [.resolve "a", .resolve "b", .poll 0, .service [], .dns, .recv, .recv, .inbound [0, 9, 1, 9],
      .recv, .drained, .poll 1, .service [], .dns, .resolve "c", .recv, .resolve "1.0.0.1", .recv,
      .inbound [0, 9, 0, 7], .recv, .drained, .poll 2, .service [], .dns]
  have hrun : (Transition.exec (Asking.step id) (fun _ _ => true)
      (Asking.init (System.init Deps.toyDns 1280 0 none)) labels).any (fun t =>
        (t.sys.world.answers 0).value.any (fun x => x.toOption = some (.v4 7)) ∧
        (t.sys.world.answers 1).value.any (fun x => x.toOption = some (.v4 9)) ∧
        (t.sys.world.answers 3).value.any (fun x => x.toOption = some (.v4 0x01000001)) ∧
        2 ∈ t.sys.waiting) = true := by
    decide +kernel
  obtain ⟨t, ht, hfacts⟩ := (Option.any_eq_true _ _).mp hrun
  obtain ⟨hfirst, hsecond, hliteral, hwaits⟩ := of_decide_eq_true hfacts
  have hvalue : ∀ {r a}, (t.sys.world.answers r).value.any
      (fun x => x.toOption = some (.v4 a)) = true →
      (t.sys.world.answers r).value = some (.ok (.v4 a)) := by
    intro r a h
    obtain ⟨x, hx, hok⟩ := (Option.any_eq_true _ _).mp h
    rw [hx]
    cases x with
    | error e => cases of_decide_eq_true hok
    | ok ip => rw [Option.some.inj (of_decide_eq_true hok)]
  have hr : Transition.Reachable (Transition.guarded
      (fun (t : Asking Deps.toyDns) l t' => Asking.step id t l = some t') fun _ _ => True)
      (fun t => ∃ s, Init s ∧ t = .init s) t :=
    .exec (fun _ _ _ h => h) (fun _ _ _ _ => trivial) labels
      (.init ⟨_, ⟨1280, 0, none, rfl⟩, rfl⟩) ht
  have hr : t.Reachable id := hr.unguarded
  have hall := dns_answers Deps.toyDns_socketSetLaws Deps.toyDns_pollLaws Deps.toyDns_queryLaws hr
  exact ⟨t, hvalue hfirst, hvalue hsecond, hvalue hliteral, hall.1, hwaits⟩

end WarpProxy.Netstack
