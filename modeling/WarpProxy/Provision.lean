/-
# `WarpProxy.Provision` — the accounts of a state directory

`loadOrRegister` goes through the accounts `1..n`: it loads those with a file and
registers the others, writing a file for each.  A run ends at the first error, and
the next one goes on from the files that are there.

That a file exists is taken for a sign that it is complete.  A file is written in one
piece into its place, so what a failed write leaves there is taken for an account by
every later run: the directory can be resumed from exactly where no write was cut
short (`Kept`, what the files are after any runs).
-/
import Mathlib.Data.List.Forall2
import Mathlib.Data.List.Range
import Mathlib.Logic.Function.Basic
import WarpProxy.Types
import WarpProxy.Lib.Pretty
import WarpProxy.Lib.Transition

namespace WarpProxy

namespace Provision

/-! ## Configuration files -/

/-- `serde_json` on configurations, `to_vec_pretty` and `from_slice`, an error as it displays. -/
structure Serde where
  toVecPretty : WarpConfig → Except String (List UInt8)
  fromSlice : List UInt8 → Except String WarpConfig

/-- A configuration can be written; what was written is read back, and a beginning of it is
refused. -/
structure Serde.Laws (serde : Serde) : Prop where
  writes : ∀ cfg, ∃ json, serde.toVecPretty cfg = .ok json
  back : ∀ cfg json, serde.toVecPretty cfg = .ok json → serde.fromSlice json = .ok cfg
  cut : ∀ cfg json k, serde.toVecPretty cfg = .ok json → k < json.length →
    ∃ e, serde.fromSlice (json.take k) = .error e

/-! ## The surroundings -/

/-- How `fs::write` ends: before the file is open, behind some of the bytes, or well. -/
inductive Written where
  | refused (e : String)
  | cut (k : Nat) (e : String)
  | complete

/-- What a run meets: the registration service, by the name of the device, and for each account
what comes of creating the directory, of writing the file, of setting its permissions and of reading
it. -/
structure World where
  registerAuto : String → Except Error WarpConfig
  createDirAll : Nat → Bool
  write : Nat → Written
  setPermissions : Nat → Except String Unit
  read : Nat → Except String Unit

/-- Nothing fails. -/
structure World.Working (w : World) : Prop where
  registers : ∀ name, ∃ cfg, w.registerAuto name = .ok cfg
  creates : ∀ i, w.createDirAll i = true
  writes : ∀ i, w.write i = .complete
  permits : ∀ i, w.setPermissions i = .ok ()
  reads : ∀ i, w.read i = .ok ()

/-- The state directory, if there is one, with the file of each account. -/
structure Dir where
  files : Option (Nat → Option (List UInt8))

def Dir.file (dir : Dir) (i : Nat) : Option (List UInt8) := dir.files.bind (· i)

def Dir.create (dir : Dir) : Dir := ⟨some (dir.files.getD fun _ => none)⟩

def Dir.put (dir : Dir) (i : Nat) (bytes : List UInt8) : Dir :=
  ⟨dir.files.map fun files => Function.update files i (some bytes)⟩

@[simp] theorem Dir.create_file (dir : Dir) (i : Nat) : dir.create.file i = dir.file i := by
  obtain ⟨files⟩ := dir
  cases files <;> rfl

theorem Dir.put_file {dir : Dir} (h : dir.files ≠ none) (i : Nat) (bytes : List UInt8) :
    (dir.put i bytes).file = Function.update dir.file i (some bytes) := by
  obtain ⟨files⟩ := dir
  cases files with
  | none => exact absurd rfl h
  | some files => rfl

/-- What happens in a run: what it prints, and how many of the bytes of a configuration reach the
file. -/
inductive Event where
  | loading (i : Nat)
  | registering (i : Nat)
  | wrote (i : Nat) (cfg : WarpConfig) (json : List UInt8) (k : Nat)

/-- An error with the context it is reported in. -/
structure Failure where
  context : Option String
  source : Error

/-! ## The run -/

def deviceName (i : Nat) : String := "warp-proxy-" ++ toString i

def fileName (i : Nat) : String := "account-" ++ toString i ++ ".json"

section
-- `join` is how `dir.join(name)` prints
variable (serde : Serde) (join : String → String) (w : World)

def load (dir : Dir) (i : Nat) : Except Error WarpConfig :=
  match dir.file i, w.read i with
  | none, _ => .error (.io "No such file or directory (os error 2)")
  | some _, .error e => .error (.io e)
  | some bytes, .ok () => (serde.fromSlice bytes).mapError .json

def save (cfg : WarpConfig) (dir : Dir) (i : Nat) : Except Error Unit × Dir × List Event :=
  match serde.toVecPretty cfg with
  | .error e => (.error (.json e), dir, [])
  | .ok json =>
      if dir.files.isNone then (.error (.io "No such file or directory (os error 2)"), dir, [])
      else
        match w.write i with
        | .refused e => (.error (.io e), dir, [])
        | .cut k e =>
            (.error (.io e), dir.put i (json.take k), [.wrote i cfg json (min k json.length)])
        | .complete =>
            ((w.setPermissions i).mapError .io, dir.put i json, [.wrote i cfg json json.length])

/-- One turn of the loop, with a directory. -/
def provision (dir : Dir) (i : Nat) : Except Failure WarpConfig × Dir × List Event :=
  if (dir.file i).isSome then
    let loaded := load serde w dir i
    (loaded.mapError fun e => ⟨some ("loading " ++ join (fileName i)), e⟩, dir, [.loading i])
  else
    match w.registerAuto (deviceName i) with
    | .error e => (.error ⟨none, e⟩, dir, [.registering i])
    | .ok cfg =>
        -- whether the directory could be created is not looked at
        let dir := if w.createDirAll i then dir.create else dir
        let (saved, dir, wrote) := save serde w cfg dir i
        ((saved.mapError fun e => ⟨some ("saving " ++ join (fileName i)), e⟩).map fun () => cfg,
          dir, .registering i :: wrote)

/-- One turn of the loop; without a directory every account is registered anew. -/
def account (stateDir : Option Dir) (i : Nat) :
    Except Failure WarpConfig × Option Dir × List Event :=
  match stateDir with
  | some dir =>
      let (out, dir, events) := provision serde join w dir i
      (out, some dir, events)
  | none => ((w.registerAuto (deviceName i)).mapError fun e => ⟨none, e⟩, none, [.registering i])

def accounts : List Nat → Option Dir → Except Failure (List WarpConfig) × Option Dir × List Event
  | [], stateDir => (.ok [], stateDir, [])
  | i :: is, stateDir =>
      match account serde join w stateDir i with
      | (.error e, stateDir, events) => (.error e, stateDir, events)
      | (.ok cfg, stateDir, events) =>
          let (out, stateDir, more) := accounts is stateDir
          (out.map (cfg :: ·), stateDir, events ++ more)

def loadOrRegister (stateDir : Option Dir) (n : Nat) :
    Except Failure (List WarpConfig) × Option Dir × List Event :=
  accounts serde join w (List.range' 1 n) stateDir

end

/-! ## What one turn does -/

section
variable {serde : Serde} {join : String → String} {w : World}

/-- What a turn does to the files and what it is known to have done. -/
inductive Turn (serde : Serde) (dir dir' : Dir) (i : Nat) :
    Except Failure WarpConfig → List Event → Prop
  /-- The file is there, and it is read. -/
  | loaded {bytes out} : dir.file i = some bytes → dir' = dir →
      (∀ cfg, out = .ok cfg → serde.fromSlice bytes = .ok cfg) →
      Turn serde dir dir' i out [.loading i]
  /-- It is not there, and nothing has come into its place. -/
  | failed {f} : dir.file i = none → dir'.file = dir.file →
      Turn serde dir dir' i (.error f) [.registering i]
  /-- It is written, as far as it goes. -/
  | wrote {cfg json k out} : dir.file i = none → serde.toVecPretty cfg = .ok json →
      k ≤ json.length → dir'.file = Function.update dir.file i (some (json.take k)) →
      (∀ cfg', out = .ok cfg' → cfg' = cfg) →
      Turn serde dir dir' i out [.registering i, .wrote i cfg json k]

theorem load_ok {dir : Dir} {i : Nat} {bytes : List UInt8} {cfg : WarpConfig}
    (hfile : dir.file i = some bytes) (h : load serde w dir i = .ok cfg) :
    serde.fromSlice bytes = .ok cfg := by
  rw [load, hfile] at h
  cases hread : w.read i with
  | error e =>
      rw [hread] at h
      cases h
  | ok u =>
      rw [hread] at h
      cases hslice : serde.fromSlice bytes with
      | error e =>
          simp only [hslice] at h
          cases h
      | ok cfg' =>
          simp only [hslice] at h
          cases h
          rfl

variable (serde) (join) (w)

/-- **One turn.** -/
theorem provision_turn (dir : Dir) (i : Nat) :
    Turn serde dir (provision serde join w dir i).2.1 i
      (provision serde join w dir i).1 (provision serde join w dir i).2.2 := by
  rw [provision]
  cases hfile : dir.file i with
  | some bytes =>
      refine .loaded hfile rfl fun cfg h => ?_
      cases hload : load serde w dir i with
      | error e =>
          simp only [hload] at h
          cases h
      | ok cfg' =>
          simp only [hload] at h
          cases h
          exact load_ok hfile hload
  | none =>
      simp only [Option.isSome_none, Bool.false_eq_true, if_false]
      cases w.registerAuto (deviceName i) with
      | error e => exact .failed hfile rfl
      | ok cfg =>
          have hcreate : (if w.createDirAll i then dir.create else dir).file = dir.file := by
            split
            · exact funext dir.create_file
            · rfl
          generalize (if w.createDirAll i then dir.create else dir) = made at hcreate
          simp only [save]
          cases hjson : serde.toVecPretty cfg with
          | error e => exact .failed hfile hcreate
          | ok json =>
              simp only
              split
              · exact .failed hfile hcreate
              · next hmade =>
                  have hfiles : made.files ≠ none := fun h => hmade (by rw [h]; rfl)
                  have hput := fun bytes => (made.put_file hfiles i bytes).trans (by rw [hcreate])
                  cases w.write i with
                  | refused e => exact .failed hfile hcreate
                  | cut k e =>
                      refine .wrote hfile hjson (Nat.min_le_right ..) ?_ fun cfg' h => (by cases h)
                      rw [← List.take_take, List.take_length]
                      exact hput _
                  | complete =>
                      refine .wrote hfile hjson (Nat.le_refl _) ?_ fun cfg' h => ?_
                      · rw [List.take_length]
                        exact hput _
                      · cases hperm : w.setPermissions i with
                        | error e =>
                            simp only [hperm] at h
                            cases h
                        | ok u =>
                            simp only [hperm] at h
                            cases h
                            rfl

/-! ## What the files are -/

/-- Every file is what was once written there, and has been written once. -/
def Kept (serde : Serde) (file : Nat → Option (List UInt8)) (history : List Event) : Prop :=
  ∀ i, (file i = none ∧ ∀ cfg json k, Event.wrote i cfg json k ∉ history) ∨
    ∃ cfg json k, serde.toVecPretty cfg = .ok json ∧ k ≤ json.length ∧
      file i = some (json.take k) ∧
      ∀ cfg' json' k', Event.wrote i cfg' json' k' ∈ history ↔
        cfg' = cfg ∧ json' = json ∧ k' = k

/-- **A turn keeps the files.** -/
theorem Turn.kept {serde : Serde} {dir dir' : Dir} {i : Nat} {out : Except Failure WarpConfig}
    {history events : List Event} (h : Turn serde dir dir' i out events)
    (hkept : Kept serde dir.file history) : Kept serde dir'.file (history ++ events) := by
  intro j
  cases h with
  | loaded hfile hdir _ =>
      subst hdir
      simpa using hkept j
  | failed hfile hdir =>
      rw [hdir]
      simpa using hkept j
  | @wrote cfg json k out hfile hjson hk hdir _ =>
      rw [hdir]
      by_cases hj : j = i
      · subst hj
        rcases hkept j with ⟨-, hnone⟩ | ⟨cfg', json', k', -, -, hsome, -⟩
        · refine .inr ⟨cfg, json, k, hjson, hk, Function.update_self .., fun cfg' json' k' => ?_⟩
          simp [hnone]
        · cases hfile.symm.trans hsome
      · rw [Function.update_of_ne hj]
        simpa [hj] using hkept j

theorem accounts_error {dir : Dir} {i : Nat} {f : Failure} (is : List Nat)
    (h : (provision serde join w dir i).1 = .error f) :
    accounts serde join w (i :: is) (some dir) =
      (.error f, some (provision serde join w dir i).2.1,
        (provision serde join w dir i).2.2) := by
  obtain ⟨out, dir', events, hprov⟩ : ∃ out dir' events,
    provision serde join w dir i = (out, dir', events) := ⟨_, _, _, rfl⟩
  rw [hprov] at h
  simp only at h
  simp only [accounts, account, hprov, h]

theorem accounts_ok {dir : Dir} {i : Nat} {cfg : WarpConfig} (is : List Nat)
    (h : (provision serde join w dir i).1 = .ok cfg) :
    accounts serde join w (i :: is) (some dir) =
      let rest := accounts serde join w is (some (provision serde join w dir i).2.1)
      (rest.1.map (cfg :: ·), rest.2.1, (provision serde join w dir i).2.2 ++ rest.2.2) := by
  obtain ⟨out, dir', events, hprov⟩ : ∃ out dir' events,
    provision serde join w dir i = (out, dir', events) := ⟨_, _, _, rfl⟩
  rw [hprov] at h
  simp only at h
  simp only [accounts, account, hprov, h]

/-- **A run keeps the files.** -/
theorem accounts_kept (is : List Nat) {dir : Dir} {history : List Event}
    (h : Kept serde dir.file history) :
    ∃ dir', (accounts serde join w is (some dir)).2.1 = some dir' ∧
      Kept serde dir'.file (history ++ (accounts serde join w is (some dir)).2.2) := by
  induction is generalizing dir history with
  | nil => exact ⟨dir, rfl, by rw [accounts, List.append_nil]; exact h⟩
  | cons i is ih =>
      have hturn := (provision_turn serde join w dir i).kept h
      cases hout : (provision serde join w dir i).1 with
      | error f =>
          rw [accounts_error serde join w is hout]
          exact ⟨_, rfl, hturn⟩
      | ok cfg =>
          rw [accounts_ok serde join w is hout]
          obtain ⟨dir', hdir, hkept⟩ := ih hturn
          exact ⟨dir', hdir, by rwa [List.append_assoc] at hkept⟩

end

section
variable {serde : Serde} (join : String → String) {w : World}

/-! ## A working run -/

/-- **A run that succeeds has read every file it came to.** -/
theorem accounts_reads {is : List Nat} {dir : Dir} {cfgs : List WarpConfig}
    (h : (accounts serde join w is (some dir)).1 = .ok cfgs) {i : Nat} (hi : i ∈ is)
    {bytes : List UInt8} (hfile : dir.file i = some bytes) :
    ∃ cfg, serde.fromSlice bytes = .ok cfg := by
  induction is generalizing dir cfgs with
  | nil => exact absurd hi List.not_mem_nil
  | cons j is ih =>
      have hturn := provision_turn serde join w dir j
      cases hout : (provision serde join w dir j).1 with
      | error f =>
          rw [accounts_error serde join w is hout] at h
          cases h
      | ok cfg =>
          rw [accounts_ok serde join w is hout] at h
          cases hrest : (accounts serde join w is
              (some (provision serde join w dir j).2.1)).1 with
          | error f =>
              simp only [hrest] at h
              cases h
          | ok rest =>
              rw [hout] at hturn
              by_cases hj : i = j
              · subst hj
                generalize (provision serde join w dir i).2.2 = events at hturn
                cases hturn with
                | loaded hfile' _ hread =>
                    cases hfile.symm.trans hfile'
                    exact ⟨cfg, hread cfg rfl⟩
                | wrote hnone => cases hnone.symm.trans hfile
              · refine ih hrest ((List.mem_cons.mp hi).resolve_left hj) ?_
                generalize (provision serde join w dir j).2.2 = events at hturn
                cases hturn with
                | loaded _ hdir _ => rw [hdir, hfile]
                | wrote _ _ _ hdir _ => rw [hdir, Function.update_of_ne hj, hfile]

/-- The file of the account is a whole configuration. -/
def Dir.Holds (serde : Serde) (dir : Dir) (i : Nat) (cfg : WarpConfig) : Prop :=
  ∃ json, serde.toVecPretty cfg = .ok json ∧ dir.file i = some json

theorem Dir.holds_congr {dir dir' : Dir} {i : Nat} (h : dir'.file i = dir.file i)
    (cfg : WarpConfig) : dir'.Holds serde i cfg ↔ dir.Holds serde i cfg := by
  rw [Dir.Holds, Dir.Holds, h]

theorem Dir.Holds.eq (hs : serde.Laws) {dir : Dir} {i : Nat} {cfg cfg' : WarpConfig}
    (h : dir.Holds serde i cfg) (h' : dir.Holds serde i cfg') : cfg = cfg' := by
  obtain ⟨json, hjson, hfile⟩ := h
  obtain ⟨json', hjson', hfile'⟩ := h'
  obtain rfl := Option.some.inj (hfile.symm.trans hfile')
  exact Except.ok.inj ((hs.back cfg json hjson).symm.trans (hs.back cfg' json hjson'))

/-- The account that an event says is registered. -/
def Event.registered : Event → Option Nat
  | .registering i => some i
  | _ => none

/-- What a turn does where nothing fails and no file is cut short. -/
theorem provision_working (hs : serde.Laws) (hw : w.Working) {dir : Dir} {i : Nat}
    (hfile : dir.file i = none ∨ ∃ cfg, dir.Holds serde i cfg) :
    ∃ cfg, (provision serde join w dir i).1 = .ok cfg ∧
      (∀ cfg', dir.Holds serde i cfg' → cfg = cfg') ∧
      (provision serde join w dir i).2.2.filterMap Event.registered =
        (if (dir.file i).isNone then [i] else []) ∧
      ∀ j, j ≠ i ∨ dir.file j ≠ none →
        (provision serde join w dir i).2.1.file j = dir.file j := by
  rcases hfile with hnone | ⟨cfg, hholds⟩
  · obtain ⟨cfg, hcfg⟩ := hw.registers (deviceName i)
    obtain ⟨json, hjson⟩ := hs.writes cfg
    have hfiles : dir.create.files ≠ none := fun h => (by cases h)
    have hprov : provision serde join w dir i = (.ok cfg, dir.create.put i json,
        [.registering i, .wrote i cfg json json.length]) := by
      simp only [provision, hnone, Option.isSome_none, Bool.false_eq_true, if_false, hcfg,
        hw.creates, if_true, save, hjson, Option.isNone_iff_eq_none, hfiles, hw.writes, hw.permits]
      rfl
    rw [hprov]
    refine ⟨cfg, rfl, fun cfg' h => ?_, by rw [hnone]; rfl, fun j hj => ?_⟩
    · obtain ⟨json', -, hsome⟩ := h
      cases hnone.symm.trans hsome
    · have hne : j ≠ i := hj.elim id fun h heq => h (heq ▸ hnone)
      rw [Dir.put_file hfiles, Function.update_of_ne hne, Dir.create_file]
  · obtain ⟨json, hjson, hsome⟩ := hholds
    have hload : load serde w dir i = .ok cfg := by
      simp only [load, hsome, hw.reads, hs.back cfg json hjson]
      rfl
    have hprov : provision serde join w dir i = (.ok cfg, dir, [.loading i]) := by
      simp only [provision, hsome, Option.isSome_some, if_true, hload]
      rfl
    rw [hprov]
    exact ⟨cfg, rfl, fun cfg' h => Dir.Holds.eq hs ⟨json, hjson, hsome⟩ h, by rw [hsome]; rfl,
      fun _ _ => rfl⟩

/-- **A run where nothing fails and no file is cut short.** -/
theorem accounts_working (hs : serde.Laws) (hw : w.Working) {is : List Nat}
    (his : is.Nodup) {dir : Dir}
    (hfile : ∀ i ∈ is, dir.file i = none ∨ ∃ cfg, dir.Holds serde i cfg) :
    ∃ cfgs dir' events, accounts serde join w is (some dir) = (.ok cfgs, some dir', events) ∧
      List.Forall₂ (fun i cfg => ∀ cfg', dir.Holds serde i cfg' → cfg = cfg') is cfgs ∧
      events.filterMap Event.registered = is.filter (fun i => (dir.file i).isNone) ∧
      ∀ j, dir.file j ≠ none → dir'.file j = dir.file j := by
  induction is generalizing dir with
  | nil => exact ⟨[], dir, [], rfl, .nil, rfl, fun _ _ => rfl⟩
  | cons i is ih =>
      obtain ⟨hi, his⟩ := List.nodup_cons.mp his
      obtain ⟨cfg, hcfg, hsame, hevents, hkeep⟩ := provision_working join hs hw
        (hfile i List.mem_cons_self)
      have hrest : ∀ j ∈ is, (provision serde join w dir i).2.1.file j = dir.file j :=
        fun j hj => hkeep j (.inl fun heq => hi (heq ▸ hj))
      obtain ⟨cfgs, dir', events, hrun, hcfgs, hregistered, hkeep'⟩ := ih his fun j hj => by
        rw [hrest j hj]
        exact (hfile j (List.mem_cons_of_mem i hj)).imp id fun ⟨cfg', hholds⟩ =>
          ⟨cfg', (Dir.holds_congr (hrest j hj) cfg').mpr hholds⟩
      refine ⟨cfg :: cfgs, dir', (provision serde join w dir i).2.2 ++ events, ?_, ?_, ?_, ?_⟩
      · rw [accounts_ok serde join w is hcfg, hrun]
        rfl
      · have hmem := (List.forall₂_and_left is cfgs).mpr ⟨fun j hj => hj, hcfgs⟩
        exact .cons hsame (hmem.imp fun j cfg' h cfg'' hholds =>
          h.2 cfg'' ((Dir.holds_congr (hrest j h.1) cfg'').mpr hholds))
      · rw [List.filterMap_append, hevents, hregistered, List.filter_cons]
        have hfilter : is.filter (fun j =>
            ((provision serde join w dir i).2.1.file j).isNone) =
            is.filter fun j => (dir.file j).isNone :=
          List.filter_congr fun j hj => by rw [hrest j hj]
        rw [hfilter]
        split <;> rfl
      · intro j hj
        have hfirst := hkeep j (.inr hj)
        rw [hkeep' j (by rwa [hfirst]), hfirst]

end

/-! ## Runs one after another -/

/-- The directory, and what has happened since it held no accounts. -/
structure State where
  dir : Dir
  history : List Event

def State.Fresh (s : State) : Prop := s.history = [] ∧ ∀ i, s.dir.file i = none

/-- The whole configuration has reached the file. -/
def State.Completed (s : State) (i : Nat) (cfg : WarpConfig) : Prop :=
  ∃ json, .wrote i cfg json json.length ∈ s.history

/-- A write came to an end behind some of the bytes. -/
def State.CutShort (s : State) (i : Nat) : Prop :=
  ∃ cfg json k, .wrote i cfg json k ∈ s.history ∧ k < json.length

section
variable (serde : Serde) (join : String → String)

/-- A run with `n` accounts.  One that is killed leaves what one leaves that fails there. -/
def State.run (s : State) (w : World) (n : Nat) : State :=
  let (_, dir, events) := loadOrRegister serde join w (some s.dir) n
  ⟨dir.getD s.dir, s.history ++ events⟩

def step (s : State) (l : World × Nat) (t : State) : Prop := t = s.run serde join l.1 l.2

/-- The run succeeds with `n` configurations, has the accounts that were completed from their files,
which stay as they are, and registers each of the others once. -/
def Resumes (s : State) (w : World) (n : Nat) : Prop :=
  ∃ cfgs dir events, loadOrRegister serde join w (some s.dir) n = (.ok cfgs, some dir, events) ∧
    cfgs.length = n ∧
    (∀ i cfg, 1 ≤ i → i ≤ n → s.Completed i cfg →
      cfgs[i - 1]? = some cfg ∧ dir.Holds serde i cfg ∧ dir.file i = s.dir.file i) ∧
    (events.filterMap Event.registered).Nodup ∧
    ∀ i, .registering i ∈ events ↔ 1 ≤ i ∧ i ≤ n ∧ ∀ cfg, ¬ s.Completed i cfg

variable {serde} {join} {s : State}

theorem mem_range (n i : Nat) : i ∈ List.range' 1 n ↔ 1 ≤ i ∧ i ≤ n := by
  rw [List.mem_range'_1]
  omega

theorem reachable_kept (h : Transition.Reachable (step serde join) State.Fresh s) :
    Kept serde s.dir.file s.history := by
  refine h.invariant (fun s => Kept serde s.dir.file s.history) (fun s hs i => ?_)
    fun s l t hs ht => ?_
  · exact .inl ⟨hs.2 i, by simp [hs.1]⟩
  · have hs : Kept serde s.dir.file s.history := hs
    obtain ⟨dir', hdir, hkept⟩ := accounts_kept serde join l.1 (List.range' 1 l.2) hs
    rw [ht]
    simp only [State.run, loadOrRegister, hdir]
    exact hkept

/-- A file that is there is complete, unless it was cut short. -/
theorem file_complete (h : Kept serde s.dir.file s.history) {i : Nat} (hcut : ¬ s.CutShort i) :
    (s.dir.file i = none ∧ ∀ cfg, ¬ s.Completed i cfg) ∨
      ∃ cfg, s.dir.Holds serde i cfg ∧ ∀ cfg', s.Completed i cfg' ↔ cfg' = cfg := by
  rcases h i with ⟨hnone, hwrote⟩ | ⟨cfg, json, k, hjson, hk, hfile, hwrote⟩
  · exact .inl ⟨hnone, fun cfg ⟨json, hdone⟩ => hwrote cfg json _ hdone⟩
  · have hall : k = json.length := by
      by_contra hne
      exact hcut ⟨cfg, json, k, (hwrote cfg json k).mpr ⟨rfl, rfl, rfl⟩, by omega⟩
    subst hall
    rw [List.take_length] at hfile
    refine .inr ⟨cfg, ⟨json, hjson, hfile⟩, fun cfg' => ⟨?_, ?_⟩⟩
    · rintro ⟨json', hdone⟩
      exact ((hwrote _ _ _).mp hdone).1
    · rintro rfl
      exact ⟨json, (hwrote _ _ _).mpr ⟨rfl, rfl, rfl⟩⟩

/-- **Nothing was cut short: the directory can be resumed from.** -/
theorem resumes_of_not_cut (hs : serde.Laws)
    (h : Kept serde s.dir.file s.history) {w : World} (hw : w.Working) {n : Nat}
    (hcut : ∀ i, 1 ≤ i → i ≤ n → ¬ s.CutShort i) : Resumes serde join s w n := by
  have hcomplete : ∀ i ∈ List.range' 1 n, _ := fun i hi =>
    file_complete h (hcut i ((mem_range n i).mp hi).1 ((mem_range n i).mp hi).2)
  obtain ⟨cfgs, dir', events, hrun, hcfgs, hregistered, hkeep⟩ :=
    accounts_working join hs hw List.nodup_range' fun i hi =>
      (hcomplete i hi).imp (·.1) fun ⟨cfg, hholds, _⟩ => ⟨cfg, hholds⟩
  have hlen : cfgs.length = n := by rw [← hcfgs.length_eq, List.length_range']
  refine ⟨cfgs, dir', events, hrun, hlen, fun i cfg h1 hn hdone => ?_, ?_, fun i => ?_⟩
  · have hi : i ∈ List.range' 1 n := (mem_range n i).mpr ⟨h1, hn⟩
    rcases hcomplete i hi with ⟨-, hnot⟩ | ⟨cfg', hholds, hiff⟩
    · exact absurd hdone (hnot cfg)
    · obtain rfl := (hiff cfg).mp hdone
      obtain ⟨json, hjson, hfile⟩ := hholds
      have hsame : dir'.file i = s.dir.file i :=
        hkeep i (by rw [hfile]; exact Option.some_ne_none _)
      refine ⟨?_, ⟨json, hjson, hsame.trans hfile⟩, hsame⟩
      have hx : i - 1 < (List.range' 1 n).length := by rw [List.length_range']; omega
      have hy : i - 1 < cfgs.length := by omega
      have hget := hcfgs.get hx hy
      rw [List.get_eq_getElem, List.getElem_range', Nat.one_mul, Nat.add_sub_cancel' h1] at hget
      rw [List.getElem?_eq_getElem hy, ← hget cfg ⟨json, hjson, hfile⟩]
      rfl
  · rw [hregistered]
    exact List.Pairwise.filter _ List.nodup_range'
  · have hmem : .registering i ∈ events ↔ i ∈ events.filterMap Event.registered := by
      rw [List.mem_filterMap]
      constructor
      · exact fun h => ⟨_, h, rfl⟩
      · rintro ⟨e, he, hi⟩
        cases e <;> cases hi
        exact he
    rw [hmem, hregistered, List.mem_filter, mem_range, and_assoc]
    refine and_congr_right fun h1 => and_congr_right fun hn => ?_
    rcases hcomplete i ((mem_range n i).mpr ⟨h1, hn⟩) with
      ⟨hnone, hnot⟩ | ⟨cfg, ⟨json, -, hfile⟩, hiff⟩
    · exact iff_of_true (by rw [hnone]; rfl) hnot
    · exact iff_of_false (by rw [hfile]; exact Bool.false_ne_true)
        fun hnot => hnot cfg ((hiff cfg).mpr rfl)

/-- **A file cut short is in the way of every later run.** -/
theorem not_resumes_of_cut (hs : serde.Laws) (h : Kept serde s.dir.file s.history) (w : World)
    {n i : Nat} (h1 : 1 ≤ i) (hn : i ≤ n) (hcut : s.CutShort i) :
    ¬ Resumes serde join s w n := by
  rintro ⟨cfgs, dir', events, hrun, -⟩
  obtain ⟨cfg, json, k, hwrote, hk⟩ := hcut
  rcases h i with ⟨-, hnone⟩ | ⟨cfg', json', k', hjson, -, hfile, hiff⟩
  · exact hnone cfg json k hwrote
  · obtain ⟨rfl, rfl, rfl⟩ := (hiff cfg json k).mp hwrote
    obtain ⟨e, he⟩ := hs.cut cfg json k hjson hk
    have hi : i ∈ List.range' 1 n := (mem_range n i).mpr ⟨h1, hn⟩
    obtain ⟨cfg', hcfg'⟩ := accounts_reads join (congrArg Prod.fst hrun) hi hfile
    rw [he] at hcfg'
    cases hcfg'

/-- **Provisioning can be resumed exactly if no write for one of these accounts was cut short.** -/
theorem resumes_iff (hs : serde.Laws)
    (h : Transition.Reachable (step serde join) State.Fresh s) {w : World} (hw : w.Working)
    (n : Nat) :
    Resumes serde join s w n ↔ ∀ i, 1 ≤ i → i ≤ n → ¬ s.CutShort i := by
  have hkept := reachable_kept h
  constructor
  · exact fun hres i h1 hn hcut => not_resumes_of_cut hs hkept w h1 hn hcut hres
  · exact resumes_of_not_cut hs hkept hw

end

/-! ## Two directories -/

/-- The fields, in the order in which they are written. -/
def members (cfg : WarpConfig) : List (List Char × List Char) :=
  [("private_key", cfg.privateKey), ("endpoint_v4", cfg.endpointV4),
    ("endpoint_v6", cfg.endpointV6), ("endpoint_h2_v4", cfg.endpointH2V4),
    ("endpoint_h2_v6", cfg.endpointH2V6), ("endpoint_pub_key", cfg.endpointPubKey),
    ("id", cfg.id), ("access_token", cfg.accessToken), ("ipv4", cfg.ipv4),
    ("ipv6", cfg.ipv6)].map fun (name, value) => (name.toList, value.toList)

def names : List (List Char) := (members .blank).map Prod.fst

/-- The text of the file. -/
def pretty (cfg : WarpConfig) : List UInt8 := Utf8.encode (Pretty.print (members cfg))

/-- A reader for files as they are written. -/
def fromPretty (bytes : List UInt8) : Except String WarpConfig :=
  let text := Utf8.lossy bytes
  if Utf8.encode text = bytes then
    match Pretty.read names text with
    | some [key, v4, v6, h2v4, h2v6, pub, id, token, ipv4, ipv6] =>
        .ok ⟨.ofList key, .ofList v4, .ofList v6, .ofList h2v4, .ofList h2v6, .ofList pub,
          .ofList id, .ofList token, .ofList ipv4, .ofList ipv6⟩
    | _ => .error "expected an account"
  else .error "invalid unicode code point"

def prettySerde : Serde := ⟨fun cfg => .ok (pretty cfg), fromPretty⟩

theorem prettySerde_laws : prettySerde.Laws where
  writes cfg := ⟨pretty cfg, rfl⟩
  back cfg json hjson := by
    cases hjson
    have hread : Pretty.read names (Pretty.print (members cfg)) =
        some ((members cfg).map Prod.snd) := Pretty.read_print (members cfg)
    simp only [prettySerde, fromPretty, pretty, Utf8.lossy_encode, if_true, hread]
    simp [members]
  cut cfg json k hjson hk := by
    cases hjson
    obtain ⟨start, hstart⟩ : ∃ start, Utf8.lossy ((pretty cfg).take k) = start := ⟨_, rfl⟩
    show ∃ e, fromPretty ((pretty cfg).take k) = .error e
    rw [fromPretty, hstart]
    split
    · next hvalid =>
        -- the text is a beginning of the one that was written
        have hmore : (pretty cfg).drop k ≠ [] := fun h =>
          absurd (List.drop_eq_nil_iff.mp h) (Nat.not_le.mpr hk)
        have htext : Pretty.print (members cfg) =
            start ++ Utf8.lossy ((pretty cfg).drop k) := by
          rw [← Utf8.lossy_encode_append, hvalid, List.take_append_drop, pretty,
            Utf8.lossy_encode]
        have hread : Pretty.read ((members cfg).map Prod.fst) start = none :=
          Pretty.read_cut htext (Utf8.lossy_ne_nil hmore)
        rw [show names = (members cfg).map Prod.fst from rfl, hread]
        exact ⟨_, rfl⟩
    · exact ⟨_, rfl⟩

/-- An account as it is registered in the runs below. -/
def device : WarpConfig := { WarpConfig.blank with id := "dev", endpointV4 := "162.159.198.1" }

def working : World where
  registerAuto _ := .ok device
  createDirAll _ := true
  write _ := .complete
  setPermissions _ := .ok ()
  read _ := .ok ()

theorem working_working : working.Working :=
  ⟨fun _ => ⟨device, rfl⟩, fun _ => rfl, fun _ => rfl, fun _ => rfl, fun _ => rfl⟩

/-- The second account cannot be registered. -/
def offline : World :=
  { working with
    registerAuto := fun name =>
      if name = deviceName 2 then .error (.http "connection refused") else .ok device }

/-- The disk is full when the first byte is written. -/
def full : World :=
  { working with write := fun _ => .cut 1 "No space left on device (os error 28)" }

/-- There is no state directory yet. -/
def fresh : State := ⟨⟨none⟩, []⟩

theorem fresh_fresh : fresh.Fresh := ⟨rfl, fun _ => rfl⟩

def inState (name : String) : String := "state/" ++ name

/-- The first account is saved and the second is not registered; the next run reads the one and
registers the other. -/
theorem resumes_iff_offline :
    Resumes prettySerde inState (fresh.run prettySerde inState offline 2) working 2 := by
  have hreach : Transition.Reachable (step prettySerde inState) State.Fresh
      (fresh.run prettySerde inState offline 2) :=
    .tail (l := (offline, 2)) (.init fresh_fresh) rfl
  refine (resumes_iff prettySerde_laws hreach working_working 2).mpr ?_
  have hhistory : (fresh.run prettySerde inState offline 2).history =
      [.registering 1, .wrote 1 device (pretty device) (pretty device).length,
        .registering 2] := by rfl
  rintro i - - ⟨cfg, json, k, hwrote, hk⟩
  obtain ⟨whole, hwhole⟩ : ∃ whole, whole = pretty device := ⟨_, rfl⟩
  rw [hhistory, ← hwhole] at hwrote
  simp only [List.mem_cons, reduceCtorEq, Event.wrote.injEq, List.not_mem_nil, or_false,
    false_or] at hwrote
  obtain ⟨-, -, rfl, rfl⟩ := hwrote
  exact absurd hk (Nat.lt_irrefl _)

/-- **After a write that was cut short the same run fails**, in a world in which nothing does. -/
theorem not_resumes_full :
    Transition.Reachable (step prettySerde inState) State.Fresh
        (fresh.run prettySerde inState full 1) ∧
      ¬ Resumes prettySerde inState (fresh.run prettySerde inState full 1) working 1 := by
  have hreach : Transition.Reachable (step prettySerde inState) State.Fresh
      (fresh.run prettySerde inState full 1) :=
    .tail (l := (full, 1)) (.init fresh_fresh) rfl
  refine ⟨hreach, not_resumes_of_cut prettySerde_laws (reachable_kept hreach) working
    (Nat.le_refl 1) (Nat.le_refl 1)
    ⟨device, pretty device, min 1 (pretty device).length, ?_, ?_⟩⟩
  · have hhistory : (fresh.run prettySerde inState full 1).history =
        [.registering 1,
          .wrote 1 device (pretty device) (min 1 (pretty device).length)] := by rfl
    rw [hhistory]
    exact List.mem_cons_of_mem _ List.mem_cons_self
  · decide +kernel

end Provision

end WarpProxy
