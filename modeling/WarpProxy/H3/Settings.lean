/-
# `WarpProxy.H3.Settings` — the settings of the vendored `h3`

The SETTINGS frame of `proto/frame.rs`, and how `config.rs` makes one of a `Config`
and a `Config` of one.  A list of settings has no more entries than the array of the
source, and no identifier twice: `insert` keeps both, so a `Settings` carries them.

    decode_entries        which entries `decode` keeps
    ofWire_toWire         a peer gets the settings of the `Config`, whatever the grease
    controlHeader_fits    the stack buffer that they are encoded to is large enough
-/
import WarpProxy.H3.VarInt

namespace WarpProxy.H3

/-! ## `SettingId`

It wraps a `u64`. -/

namespace SettingId

def none : Nat := 0
def qpackMaxTableCapacity : Nat := 0x1
def qpackMaxBlockedStreams : Nat := 0x7
def maxHeaderListSize : Nat := 0x6
def enableConnectProtocol : Nat := 0x8
def h3Datagram : Nat := 0x33
def enableWebtransport : Nat := 0x2B603742
def webtransportMaxSessions : Nat := 0x2b603743

/-- `grease`, of the random number that it draws. -/
def grease (n : Nat) : Nat := n * 0x1f + 0x21

/-- The bound of that number. -/
def greaseBound : Nat := 0x210842108421083

def isSupported (id : Nat) : Bool :=
  id == maxHeaderListSize || id == qpackMaxTableCapacity || id == qpackMaxBlockedStreams
    || id == enableConnectProtocol || id == enableWebtransport || id == webtransportMaxSessions
    || id == h3Datagram

def isForbidden (id : Nat) : Bool :=
  id == 0x00 || id == 0x02 || id == 0x03 || id == 0x04 || id == 0x05

end SettingId

/-! ## `Settings` -/

/-- `InvalidSettingValue` is never given. -/
inductive SettingsError where
  | exceeded
  | malformed
  | repeated (id : Nat)
  | invalidSettingId (id : Nat)
  deriving DecidableEq, Repr

def settingsLen : Nat := 8

/-- The entries in use. -/
structure Settings where
  entries : List (Nat × Nat)
  length_le : entries.length ≤ settingsLen
  nodup : (entries.map Prod.fst).Nodup
  deriving DecidableEq

namespace Settings

def default : Settings := ⟨[], by decide, List.nodup_nil⟩

theorem nodup_append_entry {entries : List (Nat × Nat)}
    (h : (entries.map Prod.fst).Nodup) {id : Nat}
    (hid : ¬ entries.any (·.1 == id) = true) (value : Nat) :
    ((entries ++ [(id, value)]).map Prod.fst).Nodup := by
  rw [List.map_append, List.nodup_append]
  refine ⟨h, by simp, ?_⟩
  intro a ha b hb hab
  simp only [List.map_cons, List.map_nil, List.mem_singleton] at hb
  obtain ⟨entry, hentry, rfl⟩ := List.mem_map.mp ha
  exact hid (List.any_eq_true.mpr ⟨entry, hentry, by simp [hab, hb]⟩)

def insert (s : Settings) (id : Nat) (value : Nat) : Except SettingsError Settings :=
  if hlen : settingsLen ≤ s.entries.length then .error .exceeded
  else if hid : s.entries.any (·.1 == id) = true then .error (.repeated id)
  else
    .ok ⟨s.entries ++ [(id, value)], by simp; omega, nodup_append_entry s.nodup hid value⟩

/-- `get`, which also looks at the entries not in use. -/
def get (s : Settings) (id : Nat) : Option Nat :=
  (s.entries ++ List.replicate (settingsLen - s.entries.length) (SettingId.none, 0)).lookup id

/-- `FrameHeader::len` -/
def len (s : Settings) : Nat :=
  (s.entries.map fun (id, value) => VarInt.size id + VarInt.size value).sum

def encodeEntry (entry : Nat × Nat) : List UInt8 :=
  VarInt.encode entry.1 ++ VarInt.encode entry.2

/-- `FrameType::SETTINGS` -/
def frameType : Nat := 0x4

def encode (s : Settings) : List UInt8 :=
  VarInt.encode frameType ++ VarInt.encode s.len ++ s.entries.flatMap encodeEntry

/-- The loop of `decode`.  An entry takes two bytes at least, so the fuel of `decode` is
enough. -/
def decodeFrom : Nat → Settings → List UInt8 → Except SettingsError Settings
  | _, s, [] => .ok s
  | 0, _, _ :: _ => .error .malformed
  | fuel + 1, s, b :: bs =>
      if (b :: bs).length < 2 then .error .malformed
      else
        match VarInt.decode (b :: bs) with
        | .error _ => .error .malformed
        | .ok (identifier, buf) =>
            match VarInt.decode buf with
            | .error _ => .error .malformed
            | .ok (value, buf) =>
                if SettingId.isForbidden identifier then .error (.invalidSettingId identifier)
                else if SettingId.isSupported identifier then
                  match s.insert identifier value with
                  | .error err => .error err
                  | .ok s => decodeFrom fuel s buf
                else decodeFrom fuel s buf

def decode (buf : List UInt8) : Except SettingsError Settings :=
  decodeFrom buf.length default buf

end Settings

/-! ## `config.rs` -/

structure Config.Settings where
  maxFieldSectionSize : Nat
  enableWebtransport : Bool
  enableExtendedConnect : Bool
  enableDatagram : Bool
  maxWebtransportSessions : Nat
  deriving DecidableEq, Repr

structure Config where
  sendGrease : Bool
  settings : Config.Settings
  deriving DecidableEq, Repr

namespace Config

def Settings.default : Config.Settings := ⟨2 ^ 62 - 1, false, false, false, 0⟩

/-- What the program's client is built with (`builder().enable_datagram(true)
.enable_extended_connect(true)`). -/
def client : Config :=
  ⟨true, { Settings.default with enableDatagram := true, enableExtendedConnect := true }⟩

/-- `From<&frame::Settings>` -/
def Settings.ofWire (s : H3.Settings) : Config.Settings where
  maxFieldSectionSize :=
    (s.get SettingId.maxHeaderListSize).getD Settings.default.maxFieldSectionSize
  enableWebtransport :=
    ((s.get SettingId.enableWebtransport).map (· != 0)).getD Settings.default.enableWebtransport
  maxWebtransportSessions :=
    (s.get SettingId.webtransportMaxSessions).getD Settings.default.maxWebtransportSessions
  enableDatagram := ((s.get SettingId.h3Datagram).map (· != 0)).getD Settings.default.enableDatagram
  enableExtendedConnect :=
    ((s.get SettingId.enableConnectProtocol).map (· != 0)).getD
      Settings.default.enableExtendedConnect

/-- The entries that `TryFrom<Config>` inserts after the grease. -/
def Settings.entries (c : Config.Settings) : List (Nat × Nat) :=
  [(SettingId.maxHeaderListSize, c.maxFieldSectionSize),
   (SettingId.enableConnectProtocol, c.enableExtendedConnect.toNat),
   (SettingId.enableWebtransport, c.enableWebtransport.toNat),
   (SettingId.h3Datagram, c.enableDatagram.toNat),
   (SettingId.webtransportMaxSessions, c.maxWebtransportSessions)]

/-- `insert(..)?` one after the other. -/
def insertAll (s : H3.Settings) : List (Nat × Nat) → Except SettingsError H3.Settings
  | [] => .ok s
  | (id, value) :: entries =>
      match s.insert id value with
      | .error err => .error err
      | .ok s => insertAll s entries

/-- `TryFrom<Config>`; `n` is the random number of the grease, which is left out if it
cannot be inserted. -/
def toWire (c : Config) (n : Nat) : Except SettingsError H3.Settings :=
  let s := H3.Settings.default
  let s :=
    if c.sendGrease then
      match s.insert (SettingId.grease n) 0 with
      | .ok s => s
      | .error _ => s
    else s
  insertAll s c.settings.entries

end Config

/-- `UniStreamHeader::Control`: the type of the control stream and the SETTINGS frame. -/
def controlHeader (s : Settings) : List UInt8 := VarInt.encode 0x00 ++ s.encode

/-- `WRITE_BUF_ENCODE_SIZE`: a stream type and seven varints. -/
def writeBufEncodeSize : Nat := 8 + 8 * 7

/-! ## Inserting -/

namespace Settings

theorem insert_ok (s : Settings) (id : Nat) (hlen : s.entries.length < settingsLen)
    (hid : id ∉ s.entries.map Prod.fst) (value : Nat) :
    ∃ s', s.insert id value = .ok s' ∧ s'.entries = s.entries ++ [(id, value)] := by
  have hany : ¬ s.entries.any (·.1 == id) = true := by
    intro h
    obtain ⟨entry, hentry, heq⟩ := List.any_eq_true.mp h
    exact hid (List.mem_map.mpr ⟨entry, hentry, by simpa using heq⟩)
  exact ⟨_, by rw [insert, dif_neg (by omega), dif_neg hany], rfl⟩

/-- What `get` finds, for an identifier that is in use. -/
theorem get_eq (s : Settings) {id : Nat} (hid : id ≠ SettingId.none) :
    s.get id = s.entries.lookup id := by
  have hunused : (List.replicate (settingsLen - s.entries.length)
      (SettingId.none, 0)).lookup id = none := by
    rw [List.lookup_eq_none_iff]
    intro entry hentry
    simp [List.eq_of_mem_replicate hentry, hid]
  rw [get, List.lookup_append, hunused, Option.or_none]

/-! ## Decoding -/

/-- One turn of the loop. -/
theorem decodeFrom_entry {entry : Nat × Nat} (hid : entry.1 < 2 ^ 62)
    (hvalue : entry.2 < 2 ^ 62) (fuel : Nat) (s : Settings) (buf : List UInt8) :
    decodeFrom (fuel + 1) s (encodeEntry entry ++ buf)
      = if SettingId.isForbidden entry.1 then .error (.invalidSettingId entry.1)
        else if SettingId.isSupported entry.1 then
          match s.insert entry.1 entry.2 with
          | .error err => .error err
          | .ok s => decodeFrom fuel s buf
        else decodeFrom fuel s buf := by
  have hv₁ := VarInt.isVarint_encode hid
  have hv₂ := VarInt.isVarint_encode hvalue
  have hpos₁ := hv₁.length_pos
  have hpos₂ := hv₂.length_pos
  have hd₁ := VarInt.decode_append hv₁ (VarInt.encode entry.2 ++ buf)
  have hd₂ := VarInt.decode_append hv₂ buf
  have hlen : 2 ≤ (encodeEntry entry ++ buf).length := by
    simp only [encodeEntry, List.length_append]
    omega
  rw [← List.append_assoc] at hd₁
  have hsplit : encodeEntry entry ++ buf = VarInt.encode entry.1 ++ VarInt.encode entry.2 ++ buf :=
    rfl
  rw [← hsplit] at hd₁
  generalize encodeEntry entry ++ buf = front at hd₁ hlen
  cases front with
  | nil => simp at hlen
  | cons b bs =>
      rw [decodeFrom, if_neg (by omega), hd₁]
      simp only [hd₂]

/-- **What `decode` keeps** of a list of entries: those that it knows. -/
theorem decodeFrom_entries {entries : List (Nat × Nat)}
    (hlt : ∀ entry ∈ entries, entry.1 < 2 ^ 62 ∧ entry.2 < 2 ^ 62)
    (hforbidden : ∀ entry ∈ entries, SettingId.isForbidden entry.1 = false) {s : Settings}
    (hnodup : ((s.entries ++ entries.filter fun e => SettingId.isSupported e.1).map
      Prod.fst).Nodup)
    (hlen : (s.entries ++ entries.filter fun e => SettingId.isSupported e.1).length ≤ settingsLen)
    {fuel : Nat} (hfuel : entries.length ≤ fuel) :
    ∃ s', decodeFrom fuel s (entries.flatMap encodeEntry) = .ok s'
      ∧ s'.entries = s.entries ++ entries.filter fun e => SettingId.isSupported e.1 := by
  induction entries generalizing s fuel with
  | nil => exact ⟨s, by cases fuel <;> rfl, by simp⟩
  | cons entry entries ih =>
      obtain ⟨fuel, rfl⟩ : ∃ n, fuel = n + 1 := by
        simp only [List.length_cons] at hfuel
        exact ⟨fuel - 1, by omega⟩
      have hentry := hlt entry List.mem_cons_self
      have hallowed := hforbidden entry List.mem_cons_self
      have hrest : entries.length ≤ fuel := by simpa using hfuel
      rw [List.flatMap_cons, decodeFrom_entry hentry.1 hentry.2, hallowed]
      simp only [Bool.false_eq_true, if_false]
      by_cases hsupported : SettingId.isSupported entry.1 = true
      · rw [List.filter_cons_of_pos (by simpa using hsupported)] at hnodup hlen ⊢
        obtain ⟨s₁, hins, hs₁⟩ := insert_ok s entry.1
          (by simp only [List.length_append, List.length_cons] at hlen; omega)
          (by
            intro hmem
            rw [List.map_append, List.map_cons, List.nodup_append] at hnodup
            exact hnodup.2.2 entry.1 hmem entry.1 List.mem_cons_self rfl) entry.2
        rw [if_pos hsupported, hins]
        have happend : s₁.entries ++ entries.filter (fun e => SettingId.isSupported e.1)
            = s.entries ++ entry :: entries.filter fun e => SettingId.isSupported e.1 := by
          rw [hs₁, List.append_assoc]
          rfl
        obtain ⟨s', hdec, hs'⟩ := ih (s := s₁)
          (fun e he => hlt e (List.mem_cons_of_mem _ he))
          (fun e he => hforbidden e (List.mem_cons_of_mem _ he))
          (by rw [happend]; exact hnodup) (by rw [happend]; exact hlen) hrest
        exact ⟨s', hdec, by rw [hs', happend]⟩
      · rw [List.filter_cons_of_neg (by simpa using hsupported)] at hnodup hlen ⊢
        rw [if_neg hsupported]
        exact ih (fun e he => hlt e (List.mem_cons_of_mem _ he))
          (fun e he => hforbidden e (List.mem_cons_of_mem _ he)) hnodup hlen hrest

theorem length_le_flatMap_encodeEntry (entries : List (Nat × Nat)) :
    entries.length ≤ (entries.flatMap encodeEntry).length := by
  induction entries with
  | nil => exact Nat.le_refl _
  | cons entry entries ih =>
      have hpos : 0 < (VarInt.encode entry.1).length := by
        rw [VarInt.length_encode, VarInt.size]
        split
        · decide
        · split
          · decide
          · split <;> decide
      simp only [List.flatMap_cons, encodeEntry, List.length_append, List.length_cons] at ih ⊢
      omega

/-- What a peer knows of a list of settings. -/
def known (s : Settings) : Settings where
  entries := s.entries.filter fun e => SettingId.isSupported e.1
  length_le := (List.length_filter_le _ _).trans s.length_le
  nodup := s.nodup.sublist (List.filter_sublist.map _)

/-- **Settings are read back**, but for those that are not known. -/
theorem decode_entries {s : Settings}
    (hlt : ∀ entry ∈ s.entries, entry.1 < 2 ^ 62 ∧ entry.2 < 2 ^ 62)
    (hforbidden : ∀ entry ∈ s.entries, SettingId.isForbidden entry.1 = false) :
    decode (s.entries.flatMap encodeEntry) = .ok s.known := by
  obtain ⟨s', hdec, hs'⟩ := @decodeFrom_entries s.entries hlt hforbidden .default
    (by simpa only [default, List.nil_append, known] using s.known.nodup)
    (by simpa only [default, List.nil_append, known] using s.known.length_le) _
    (length_le_flatMap_encodeEntry s.entries)
  have heq : s' = s.known := by
    cases s'
    simp only [known, Settings.mk.injEq]
    simpa [default] using hs'
  rw [heq] at hdec
  exact hdec

end Settings

/-! ## A `Config` on the wire -/

namespace Config

/-- The varints that the settings of a `Config` are sent as can hold them. -/
def Settings.Fits (c : Config.Settings) : Prop :=
  c.maxFieldSectionSize < 2 ^ 62 ∧ c.maxWebtransportSessions < 2 ^ 62

instance (c : Config.Settings) : Decidable c.Fits := inferInstanceAs (Decidable (_ ∧ _))

theorem insertAll_ok (s : H3.Settings) (entries : List (Nat × Nat))
    (hnodup : ((s.entries ++ entries).map Prod.fst).Nodup)
    (hlen : (s.entries ++ entries).length ≤ settingsLen) :
    ∃ s', insertAll s entries = .ok s' ∧ s'.entries = s.entries ++ entries := by
  induction entries generalizing s with
  | nil => exact ⟨s, rfl, by simp⟩
  | cons entry entries ih =>
      obtain ⟨s₁, hins, hs₁⟩ := Settings.insert_ok s entry.1
        (by simp only [List.length_append, List.length_cons] at hlen; omega)
        (by
          intro hmem
          rw [List.map_append, List.map_cons, List.nodup_append] at hnodup
          exact hnodup.2.2 entry.1 hmem entry.1 List.mem_cons_self rfl) entry.2
      have happend : s₁.entries ++ entries = s.entries ++ entry :: entries := by
        rw [hs₁, List.append_assoc]
        rfl
      obtain ⟨s', hall, hs'⟩ := ih (s := s₁) (by rw [happend]; exact hnodup)
        (by rw [happend]; exact hlen)
      exact ⟨s', by rw [insertAll, hins]; exact hall, by rw [hs', happend]⟩

/-- The entry of the grease, if there is one. -/
def greaseEntries (c : Config) (n : Nat) : List (Nat × Nat) :=
  if c.sendGrease then [(SettingId.grease n, 0)] else []

theorem grease_not_mem (c : Config.Settings) (n : Nat) :
    SettingId.grease n ∉ c.entries.map Prod.fst := by
  simp only [Settings.entries, List.map_cons, List.map_nil, List.mem_cons, List.not_mem_nil,
    or_false, SettingId.grease, SettingId.maxHeaderListSize, SettingId.enableConnectProtocol,
    SettingId.enableWebtransport, SettingId.h3Datagram, SettingId.webtransportMaxSessions]
  omega

theorem grease_not_supported (n : Nat) : SettingId.isSupported (SettingId.grease n) = false := by
  simp only [SettingId.isSupported, Bool.or_eq_false_iff, beq_eq_false_iff_ne, ne_eq,
    SettingId.grease, SettingId.maxHeaderListSize, SettingId.enableConnectProtocol,
    SettingId.enableWebtransport, SettingId.h3Datagram, SettingId.webtransportMaxSessions,
    SettingId.qpackMaxTableCapacity, SettingId.qpackMaxBlockedStreams]
  omega

theorem grease_not_forbidden (n : Nat) : SettingId.isForbidden (SettingId.grease n) = false := by
  simp only [SettingId.isForbidden, Bool.or_eq_false_iff, beq_eq_false_iff_ne, ne_eq,
    SettingId.grease]
  omega

/-- A `Config` can always be sent, whatever the grease. -/
theorem toWire_ok (c : Config) (n : Nat) :
    ∃ s, c.toWire n = .ok s ∧ s.entries = c.greaseEntries n ++ c.settings.entries := by
  have hkeys : (c.settings.entries.map Prod.fst).Nodup := by
    simp only [Settings.entries, List.map_cons, List.map_nil]
    decide
  cases hg : c.sendGrease with
  | false =>
      obtain ⟨s, hs, hentries⟩ := insertAll_ok .default c.settings.entries
        (by simpa [H3.Settings.default] using hkeys)
        (by simp [H3.Settings.default, Settings.entries, settingsLen])
      refine ⟨s, by simpa [toWire, hg] using hs, ?_⟩
      simpa [greaseEntries, hg, H3.Settings.default] using hentries
  | true =>
      obtain ⟨s₁, hins, hs₁⟩ := H3.Settings.insert_ok .default (SettingId.grease n)
        (by decide) (by simp [H3.Settings.default]) 0
      have hnil : s₁.entries = [(SettingId.grease n, 0)] := by
        simpa [H3.Settings.default] using hs₁
      obtain ⟨s, hs, hentries⟩ := insertAll_ok s₁ c.settings.entries
        (by
          rw [hnil, List.singleton_append, List.map_cons, List.nodup_cons]
          exact ⟨grease_not_mem c.settings n, hkeys⟩)
        (by simp [hnil, Settings.entries, settingsLen])
      refine ⟨s, by simpa [toWire, hg, hins] using hs, ?_⟩
      simpa [greaseEntries, hg, hnil] using hentries

theorem entries_lt {c : Config} (hfits : c.settings.Fits) {n : Nat}
    (hn : n < SettingId.greaseBound) :
    ∀ entry ∈ c.greaseEntries n ++ c.settings.entries, entry.1 < 2 ^ 62 ∧ entry.2 < 2 ^ 62 := by
  have hgrease : SettingId.grease n < 2 ^ 62 := by
    simp only [SettingId.greaseBound] at hn
    simp only [SettingId.grease]
    omega
  have hbool (b : Bool) : b.toNat < 2 ^ 62 := by cases b <;> decide
  have hid (id : Nat) (h : id < 2 ^ 32) : id < 2 ^ 62 := by omega
  intro entry hentry
  rcases List.mem_append.mp hentry with h | h
  · simp only [greaseEntries] at h
    split at h
    · simp only [List.mem_singleton] at h
      rw [h]
      exact ⟨hgrease, Nat.two_pow_pos 62⟩
    · cases h
  · simp only [Settings.entries, List.mem_cons, List.not_mem_nil, or_false] at h
    rcases h with rfl | rfl | rfl | rfl | rfl
    · exact ⟨hid SettingId.maxHeaderListSize (by decide), hfits.1⟩
    · exact ⟨hid SettingId.enableConnectProtocol (by decide), hbool _⟩
    · exact ⟨hid SettingId.enableWebtransport (by decide), hbool _⟩
    · exact ⟨hid SettingId.h3Datagram (by decide), hbool _⟩
    · exact ⟨hid SettingId.webtransportMaxSessions (by decide), hfits.2⟩

theorem entries_not_forbidden (c : Config) (n : Nat) :
    ∀ entry ∈ c.greaseEntries n ++ c.settings.entries,
      SettingId.isForbidden entry.1 = false := by
  intro entry hentry
  rcases List.mem_append.mp hentry with h | h
  · simp only [greaseEntries] at h
    split at h
    · rw [List.mem_singleton.mp h]
      exact grease_not_forbidden n
    · cases h
  · simp only [Settings.entries, List.mem_cons, List.not_mem_nil, or_false] at h
    rcases h with rfl | rfl | rfl | rfl | rfl <;> rfl

/-- What is kept of the entries: all but the grease. -/
theorem filter_entries (c : Config) (n : Nat) :
    ((c.greaseEntries n ++ c.settings.entries).filter fun e => SettingId.isSupported e.1)
      = c.settings.entries := by
  have hgrease : (c.greaseEntries n).filter (fun e => SettingId.isSupported e.1) = [] := by
    unfold greaseEntries
    split
    · simp [grease_not_supported]
    · rfl
  rw [List.filter_append, hgrease, List.nil_append]
  rfl

/-- The entries of a `Config` are read back as its settings. -/
theorem ofWire_of_entries {c : Config.Settings} {s : H3.Settings} (h : s.entries = c.entries) :
    Settings.ofWire s = c := by
  have hget (id : Nat) (hid : id ≠ SettingId.none) : s.get id = c.entries.lookup id := by
    rw [H3.Settings.get_eq s hid, h]
  obtain ⟨size, webtransport, connect, datagram, sessions⟩ := c
  simp only [Settings.ofWire, hget SettingId.maxHeaderListSize (by decide),
    hget SettingId.enableWebtransport (by decide),
    hget SettingId.webtransportMaxSessions (by decide),
    hget SettingId.h3Datagram (by decide),
    hget SettingId.enableConnectProtocol (by decide)]
  cases webtransport <;> cases connect <;> cases datagram <;> rfl

/-- **The peer's settings**: what a `Config` sends is read back as its settings, and the
grease as nothing. -/
theorem decode_toWire {c : Config} (hfits : c.settings.Fits) {n : Nat}
    (hn : n < SettingId.greaseBound) {s : H3.Settings} (hs : c.toWire n = .ok s) :
    ∃ s', H3.Settings.decode (s.entries.flatMap H3.Settings.encodeEntry) = .ok s'
      ∧ Settings.ofWire s' = c.settings := by
  obtain ⟨s₁, hs₁, hentries⟩ := toWire_ok c n
  obtain rfl : s₁ = s := by simpa [hs₁] using hs
  have hdec := @H3.Settings.decode_entries s₁
    (by rw [hentries]; exact entries_lt hfits hn)
    (by rw [hentries]; exact entries_not_forbidden c n)
  refine ⟨_, hdec, ofWire_of_entries ?_⟩
  simp only [H3.Settings.known, hentries, filter_entries]

end Config

/-! ## The size of a SETTINGS frame -/

namespace Settings

/-- `len` is the length of what follows it. -/
theorem len_eq (s : Settings) : s.len = (s.entries.flatMap encodeEntry).length := by
  unfold len
  induction s.entries with
  | nil => rfl
  | cons entry entries ih =>
      simp only [List.map_cons, List.sum_cons, List.flatMap_cons, List.length_append, encodeEntry,
        VarInt.length_encode, ih]

end Settings

namespace VarInt

theorem size_le (x : Nat) : size x ≤ 8 := by
  unfold size
  split
  · decide
  · split
    · decide
    · split <;> decide

theorem size_of_lt {x : Nat} (h : x < 64) : size x = 1 := if_pos h

end VarInt

/-- **The header of the control stream fits** into the buffer that it is encoded to, which
is on the stack and does not grow. -/
theorem controlHeader_fits {c : Config} {n : Nat} {s : Settings} (hs : c.toWire n = .ok s) :
    (controlHeader s).length ≤ writeBufEncodeSize := by
  obtain ⟨s₁, hs₁, hentries⟩ := Config.toWire_ok c n
  obtain rfl : s₁ = s := by simpa [hs₁] using hs
  have hgrease := VarInt.size_le (SettingId.grease n)
  have hsize := VarInt.size_le c.settings.maxFieldSectionSize
  have hsessions := VarInt.size_le c.settings.maxWebtransportSessions
  have hbool (b : Bool) : VarInt.size b.toNat = 1 := by cases b <;> rfl
  have hentries' : s₁.len ≤ 39 := by
    have h₁ : VarInt.size SettingId.maxHeaderListSize = 1 := rfl
    have h₂ : VarInt.size SettingId.enableConnectProtocol = 1 := rfl
    have h₃ : VarInt.size SettingId.enableWebtransport = 4 := rfl
    have h₄ : VarInt.size SettingId.h3Datagram = 1 := rfl
    have h₅ : VarInt.size SettingId.webtransportMaxSessions = 4 := rfl
    have hzero : VarInt.size 0 = 1 := rfl
    unfold Settings.len
    rw [hentries]
    unfold Config.greaseEntries
    split <;> simp [Config.Settings.entries, h₁, h₂, h₃, h₄, h₅, hbool, hzero] <;> omega
  have hlen := VarInt.size_of_lt (x := s₁.len) (by omega)
  have htype : VarInt.size Settings.frameType = 1 := rfl
  have hcontrol : VarInt.size 0 = 1 := rfl
  simp only [controlHeader, Settings.encode, List.length_append, VarInt.length_encode, hlen,
    htype, hcontrol, ← Settings.len_eq, writeBufEncodeSize]
  omega

end WarpProxy.H3
