import Choreo.Client.AutoBind
import Choreo.Library.Base64

/-!
# The store of known servers

The file `known_servers.toml` that the clients of a user share
(`choreo-client-core/src/known_servers.rs`). Loading is tolerant: a file that cannot be read or is
not the TOML of entries, for one bad value also, has no entries, and an entry with a bad pin is left
out. Writing replaces the whole file by the view of the process that writes, under a lock, and
truncates it in place. So a key stays in the file as long as those who write hold it in their views
and no writing stops in between. An operation changes the entries before it writes them.
-/

namespace Choreo

open List Option

namespace KnownServers

/-! ### Entries -/

structure StoredEntry where
  addr : String
  pubkey : Option String := none
  unlockKey : Option String := none
deriving DecidableEq

/-- The 32 bytes of a text in base64. -/
def decodeKey (b64 : String) : Option UnlockKey :=
  (Base64.decode (trim b64).toList).bind fun bytes =>
    if h : bytes.length = 32 then some ⟨bytes, h⟩ else none

/-- 32 bytes as base64. -/
def encodeKey (key : UnlockKey) : String := String.ofList (Base64.encode key.val)

/-- What loading makes of an entry: a bad pin drops it, a bad unlock key is left out. -/
def parseEntry (entry : StoredEntry) : Option KnownServerEntry :=
  match entry.pubkey with
  | none =>
    some { addr := entry.addr, pubkey := none, unlockKey := entry.unlockKey.bind decodeKey }
  | some b64 =>
    match decodeKey b64 with
    | none => none
    | some pk =>
      some { addr := entry.addr, pubkey := some pk, unlockKey := entry.unlockKey.bind decodeKey }

/-- An entry as it is written. -/
def stored (entry : KnownServerEntry) : StoredEntry where
  addr := entry.addr
  pubkey := entry.pubkey.map encodeKey
  unlockKey := entry.unlockKey.map encodeKey

/-! ### Operations -/

/-- Pins the key of an address; the unlock key of its entry stays. -/
def pin (addr : String) (pk : PublicKey) : KnownServers → KnownServers
  | [] => [{ addr := addr, pubkey := some pk }]
  | entry :: servers =>
    if entry.addr = addr then { entry with pubkey := some pk } :: servers
    else entry :: pin addr pk servers

/-- Removes the entries of an address, if there are any. -/
def remove (addr : String) (servers : KnownServers) : Option KnownServers :=
  let kept := servers.filter (·.addr ≠ addr)
  if kept.length = servers.length then none else some kept

/-- The operations that write the file. -/
inductive Operation
  | pin (addr : String) (pk : PublicKey)
  | setUnlockKey (addr : String) (key : UnlockKey)
  | remove (addr : String)

/-- The view that an operation writes, if it writes. -/
def Operation.apply (operation : Operation) (view : KnownServers) : Option KnownServers :=
  match operation with
  | .pin addr pk => some (KnownServers.pin addr pk view)
  | .setUnlockKey addr key => some (KnownServers.setUnlockKey addr key view)
  | .remove addr => KnownServers.remove addr view

/-- The operations that may drop the unlock key of an address. -/
def Operation.Targets (addr : String) : Operation → Prop
  | .pin _ _ => False
  | .setUnlockKey target _ => target = addr
  | .remove target => target = addr

/-! ### The file -/

/-- Reading and writing the file: texts, the entries of a text, if it is TOML, the text of entries,
and the beginning of a text that was written up to some byte. -/
structure StorePackages (Text : Type) where
  fromStr : Text → Option (List StoredEntry)
  toStringPretty : List StoredEntry → Text
  empty : Text
  take : ℕ → Text → Text
  fromStr_toStringPretty : ∀ entries, fromStr (toStringPretty entries) = some entries

variable {Text : Type} (packages : StorePackages Text)

def parseStore (text : Text) : KnownServers :=
  match packages.fromStr text with
  | none => []
  | some entries => entries.filterMap parseEntry

/-- Loads the file. A file that is missing or cannot be read has no entries. -/
def loadFrom (readable : Bool) (file : Option Text) : KnownServers :=
  match file with
  | none => []
  | some text => if readable then parseStore packages text else []

/-- The steps of writing the file. -/
inductive PersistStep
  | createDir
  | openFile
  | lock
  | serialize
  | setLen
  | seek
  | write (written : ℕ)
  | sync
  | unlock

/-- The file when writing ends before a step is done. -/
def PersistStep.left (text : Text) (file : Option Text) : PersistStep → Option Text
  | .createDir | .openFile => file
  | .lock | .serialize | .setLen => some (file.getD packages.empty)
  | .seek => some packages.empty
  | .write written => some (packages.take written text)
  | .sync | .unlock => some text

/-- How an operation ends: it is done, a step fails and it returns an error, or the process dies. -/
inductive Ending
  | done
  | error (stop : PersistStep)
  | crash (stop : PersistStep)

/-- Where writing stopped, if it did. -/
def Ending.stopped : Ending → Option PersistStep
  | .done => none
  | .error stop => some stop
  | .crash stop => some stop

/-- The file after writing. -/
def Ending.left (text : Text) (file : Option Text) (ending : Ending) : Option Text :=
  match ending.stopped with
  | none => some text
  | some stop => stop.left packages text file

/-- Whether the file was truncated. -/
def Ending.truncates (ending : Ending) : Bool :=
  match ending.stopped with
  | some .createDir | some .openFile | some .lock | some .serialize | some .setLen => false
  | _ => true

/-- The file, and the entries that each process holds, if it has loaded them. -/
structure StoreState (Text : Type) where
  file : Option Text
  views : ℕ → Option KnownServers := fun _ => none

/-- What can happen: a process loads the file, or cannot read it; a process changes its entries and
writes them, while others may load what is written up to some byte. -/
inductive StoreEvent
  | load (process : ℕ) (readable : Bool)
  | operate (process : ℕ) (operation : Operation) (readers : List (ℕ × ℕ)) (ending : Ending)

/-- The views after others have loaded the file while it was written. -/
def readersViews (file : Option Text) (readers : List (ℕ × ℕ))
    (views : ℕ → Option KnownServers) : ℕ → Option KnownServers :=
  readers.foldl
    (fun views reader => Function.update views reader.1
      (some (loadFrom packages true (file.map (packages.take reader.2)))))
    views

/-- What happens at an event. An error leaves the entries of the process changed. -/
def step (event : StoreEvent) (s : StoreState Text) : Option (StoreState Text) :=
  match event with
  | .load process readable =>
    some { s with
      views := Function.update s.views process (some (loadFrom packages readable s.file)) }
  | .operate process operation readers ending =>
    match s.views process with
    | none => none
    | some view =>
      match operation.apply view with
      | none => some s
      | some view' =>
        if readers = [] ∨ ending.truncates then
          let file := ending.left packages (packages.toStringPretty (view'.map stored)) s.file
          let view := match ending with
            | .crash _ => none
            | _ => some view'
          some { file
                 views := Function.update (readersViews packages file readers s.views) process view }
        else none

/-! ### Keys -/

variable (view : KnownServers)

/-- Entries hold the unlock key of an address. -/
def Holds (addr : String) (key : UnlockKey) : Prop :=
  ∃ entry ∈ view, entry.addr = addr ∧ entry.unlockKey = some key

/-- Entries of a file have the unlock key of an address. -/
def Has (entries : List StoredEntry) (addr : String) (key : UnlockKey) : Prop :=
  ∃ entry ∈ entries, entry.addr = addr ∧ entry.unlockKey.bind decodeKey = some key

/-- An entry of a file that loading does not leave out has the unlock key of an address. -/
def Usable (entries : List StoredEntry) (addr : String) (key : UnlockKey) : Prop :=
  ∃ entry ∈ entries, entry.addr = addr ∧ entry.unlockKey.bind decodeKey = some key ∧
    ∀ b64, entry.pubkey = some b64 → (decodeKey b64).isSome

/-- What a text records, also if it is not TOML. -/
structure Reading where
  recorded : Text → String → UnlockKey → Prop
  recorded_iff : ∀ text entries, packages.fromStr text = some entries →
    ∀ addr key, recorded text addr key ↔ Has entries addr key

/-- The events that may drop the unlock key of an address. -/
def StoreEvent.Targets (addr : String) : StoreEvent → Prop
  | .load _ _ => False
  | .operate _ operation _ _ => operation.Targets addr

variable {packages} (reading : Reading packages)

def Recorded (file : Option Text) (addr : String) (key : UnlockKey) : Prop :=
  ∃ text, file = some text ∧ reading.recorded text addr key

/-- A step loses no unlock key but that of the address it sets or removes. -/
def KeepsKeys (event : StoreEvent) (s : StoreState Text) : Prop :=
  ∀ s', step packages event s = some s' → ∀ addr key, Recorded reading s.file addr key →
    event.Targets addr ∨ Recorded reading s'.file addr key

/-- A step loses no unlock key but that of the address it sets or removes, and an operation that
returns an error leaves the entries of its process as they were. -/
structure Sound (event : StoreEvent) (s : StoreState Text) : Prop where
  keeps : KeepsKeys reading event s
  unchanged : ∀ process operation readers stop,
    event = .operate process operation readers (.error stop) →
      ∀ s', step packages event s = some s' → s'.views process = s.views process

/-- Writing a view preserves an unlock key: the view holds it, if all of it was written, and what was
written records it, if writing stopped after the file was truncated. -/
def Ending.Preserves (ending : Ending) (view : KnownServers) (text : Text) (addr : String)
    (key : UnlockKey) : Prop :=
  match ending.stopped with
  | none | some .sync | some .unlock => Holds view addr key
  | some .seek => reading.recorded packages.empty addr key
  | some (.write written) => reading.recorded (packages.take written text) addr key
  | some .createDir | some .openFile | some .lock | some .serialize | some .setLen => True

/-- A process that writes the file preserves all unlock keys that the file records, but that of the
address it sets or removes. If it returns an error, there was nothing to change in its entries. -/
def Careful (event : StoreEvent) (s : StoreState Text) : Prop :=
  match event with
  | .load _ _ => True
  | .operate process operation readers ending =>
    ∀ view view', s.views process = some view → operation.apply view = some view' →
      (readers = [] ∨ ending.truncates) →
        (∀ addr key, Recorded reading s.file addr key → operation.Targets addr ∨
          ending.Preserves reading view (packages.toStringPretty (view'.map stored)) addr key) ∧
        ∀ stop, ending = .error stop → view' = view

/-! ### Reading what was written -/

theorem dropWhile_of_forall {chars : List Char} (h : ∀ c ∈ chars, isWhitespace c = false) :
    chars.dropWhile isWhitespace = chars := by
  rcases chars with _ | ⟨c, chars⟩
  · rfl
  · exact dropWhile_cons_of_neg (by simp [h c mem_cons_self])

/-- Trimming leaves a text without white space alone. -/
theorem trim_ofList {chars : List Char} (h : ∀ c ∈ chars, isWhitespace c = false) :
    trim (String.ofList chars) = String.ofList chars := by
  rw [trim, String.toList_ofList, dropWhile_of_forall h, dropWhile_of_forall, reverse_reverse]
  exact fun c hc => h c (mem_reverse.1 hc)

theorem decodeKey_encodeKey (key : UnlockKey) : decodeKey (encodeKey key) = some key := by
  have hdigit : ∀ d : Fin 64, isWhitespace (Base64.digit d) = false := by decide
  have hchars := Base64.forall_mem_encode (P := fun c => isWhitespace c = false)
    (fun d hd => hdigit ⟨d, hd⟩) (by decide) key.val
  rw [decodeKey, encodeKey, trim_ofList hchars, String.toList_ofList, Base64.decode_encode]
  exact dif_pos key.property

/-- What is written of entries records the unlock keys they hold. -/
theorem has_stored_iff (addr : String) (key : UnlockKey) :
    Has (view.map stored) addr key ↔ Holds view addr key := by
  have hkey : ∀ entry : KnownServerEntry, (stored entry).unlockKey.bind decodeKey =
      entry.unlockKey := by
    intro entry
    rcases hunlock : entry.unlockKey with _ | k
    · simp [stored, hunlock]
    · simp [stored, hunlock, decodeKey_encodeKey]
  constructor
  · rintro ⟨_, hmem, haddr, hunlock⟩
    obtain ⟨entry, hentry, rfl⟩ := List.mem_map.1 hmem
    exact ⟨entry, hentry, haddr, (hkey entry).symm.trans hunlock⟩
  · rintro ⟨entry, hentry, haddr, hunlock⟩
    exact ⟨stored entry, List.mem_map_of_mem hentry, haddr, (hkey entry).trans hunlock⟩

variable {addr : String}

theorem holds_loadFrom {text : Text} {entries : List StoredEntry}
    (htext : packages.fromStr text = some entries) {key : UnlockKey}
    (h : Usable entries addr key) : Holds (loadFrom packages true (some text)) addr key := by
  obtain ⟨entry, hentry, haddr, hunlock, hpin⟩ := h
  have hparsed : ∃ parsed, parseEntry entry = some parsed ∧ parsed.addr = entry.addr ∧
      parsed.unlockKey = entry.unlockKey.bind decodeKey := by
    rw [parseEntry]
    rcases hpubkey : entry.pubkey with _ | b64
    · exact ⟨_, rfl, rfl, rfl⟩
    · obtain ⟨pk, hpk⟩ := isSome_iff_exists.1 (hpin b64 hpubkey)
      simp only [hpk]
      exact ⟨_, rfl, rfl, rfl⟩
  obtain ⟨parsed, hparse, hparsedAddr, hparsedKey⟩ := hparsed
  refine ⟨parsed, ?_, hparsedAddr.trans haddr, hparsedKey.trans hunlock⟩
  rw [loadFrom, if_pos rfl, parseStore, htext]
  exact mem_filterMap.2 ⟨entry, hentry, hparse⟩

/-! ### What operations keep -/

theorem holds_cons {entry : KnownServerEntry} {servers : KnownServers}
    {key : UnlockKey} : Holds (entry :: servers) addr key ↔
      (entry.addr = addr ∧ entry.unlockKey = some key) ∨ Holds servers addr key := by
  simp [Holds]

/-- Pinning keeps the unlock keys of all addresses. -/
theorem holds_pin (target : String) (pk : PublicKey) (view : KnownServers) (addr : String)
    (key : UnlockKey) : Holds (pin target pk view) addr key ↔ Holds view addr key := by
  induction view with
  | nil => simp [pin, Holds]
  | cons entry servers ih =>
    rw [pin]
    split_ifs with htarget
    · rw [holds_cons, holds_cons]
    · rw [holds_cons, holds_cons, ih]

theorem holds_setUnlockKey {target : String} (new : UnlockKey) (view : KnownServers)
    (haddr : target ≠ addr) (key : UnlockKey) :
    Holds (setUnlockKey target new view) addr key ↔ Holds view addr key := by
  induction view with
  | nil => simp [setUnlockKey, Holds, haddr]
  | cons entry servers ih =>
    rw [setUnlockKey]
    split_ifs with htarget
    · rw [holds_cons, holds_cons]
      simp [htarget, haddr]
    · rw [holds_cons, holds_cons, ih]

variable {view view' : KnownServers}

theorem holds_remove {target : String}
    (h : remove target view = some view') (haddr : target ≠ addr)
    (key : UnlockKey) : Holds view' addr key ↔ Holds view addr key := by
  simp only [remove, ite_none_left_eq_some] at h
  obtain ⟨-, rfl⟩ := h.imp_right some.inj
  constructor
  · rintro ⟨entry, hentry, h⟩
    exact ⟨entry, (mem_filter.1 hentry).1, h⟩
  · rintro ⟨entry, hentry, rfl, hkey⟩
    exact ⟨entry, mem_filter.2 ⟨hentry, by simpa using haddr.symm⟩, rfl, hkey⟩

theorem holds_apply {operation : Operation}
    (h : operation.apply view = some view') (htargets : ¬ operation.Targets addr)
    (key : UnlockKey) : Holds view' addr key ↔ Holds view addr key := by
  rcases operation with ⟨target, pk⟩ | ⟨target, new⟩ | target
  · cases h
    exact holds_pin target pk view addr key
  · cases h
    exact holds_setUnlockKey new view htargets key
  · exact holds_remove h htargets key

/-! ### One step -/

variable {s s' : StoreState Text} {event : StoreEvent}

theorem recorded_written_iff (addr : String) (key : UnlockKey) :
    Recorded reading (some (packages.toStringPretty (view.map stored))) addr key ↔
      Holds view addr key := by
  rw [← has_stored_iff,
    ← reading.recorded_iff _ _ (packages.fromStr_toStringPretty (view.map stored))]
  exact ⟨fun ⟨text, htext, h⟩ => some.inj htext ▸ h, fun h => ⟨_, rfl, h⟩⟩

/-- What a step leaves in the file of an unlock key that it records. -/
theorem recorded_left_iff {file : Option Text} {key : UnlockKey}
    (h : Recorded reading file addr key) (hview : Holds view' addr key ↔ Holds view addr key)
    (ending : Ending) :
    Recorded reading (ending.left packages (packages.toStringPretty (view'.map stored)) file)
        addr key ↔
      ending.Preserves reading view (packages.toStringPretty (view'.map stored)) addr key := by
  have hwritten := (recorded_written_iff reading addr key).trans hview
  have hsome : ∀ text : Text, Recorded reading (some text) addr key ↔
      reading.recorded text addr key := fun text =>
    ⟨fun ⟨_, heq, h⟩ => Option.some.inj heq ▸ h, fun h => ⟨text, rfl, h⟩⟩
  obtain ⟨old, rfl, hold⟩ := h
  rw [Ending.left, Ending.Preserves]
  rcases ending.stopped with _ | stop
  · exact hwritten
  · cases stop with
    | seek => exact hsome _
    | write written => exact hsome _
    | sync | unlock => exact hwritten
    | createDir | openFile | lock | serialize | setLen =>
      exact iff_of_true ⟨old, rfl, hold⟩ trivial

theorem step_operate (packages : StorePackages Text) {process : ℕ} {operation : Operation}
    {readers : List (ℕ × ℕ)} {ending : Ending} (hview : s.views process = some view)
    (happly : operation.apply view = some view') (hreaders : readers = [] ∨ ending.truncates) :
    ∃ s', step packages (.operate process operation readers ending) s = some s' ∧
      s'.file = ending.left packages (packages.toStringPretty (view'.map stored)) s.file ∧
      ∀ stop, ending = .error stop → s'.views process = some view' := by
  simp only [step, hview, happly, if_pos hreaders]
  refine ⟨_, rfl, rfl, ?_⟩
  rintro stop rfl
  exact Function.update_self _ _ _

/-- A step is sound exactly if the process that takes it is careful. -/
theorem sound_iff_careful (event : StoreEvent) (s : StoreState Text) :
    Sound reading event s ↔ Careful reading event s := by
  rcases event with ⟨loading, readable⟩ | ⟨process, operation, readers, ending⟩
  · refine iff_of_true ⟨?_, by rintro _ _ _ _ ⟨⟩⟩ trivial
    intro s' hs' addr key h
    cases hs'
    exact .inr h
  · constructor
    · rintro hsound view view' hview happly hreaders
      obtain ⟨s', hs', hfile, hmemory⟩ := step_operate packages hview happly hreaders
      refine ⟨fun addr key hrecorded => or_iff_not_imp_left.2 fun htargets => ?_, ?_⟩
      · have hafter := (hsound.keeps s' hs' addr key hrecorded).resolve_left htargets
        rw [hfile] at hafter
        exact (recorded_left_iff reading hrecorded (holds_apply happly htargets key) ending).1 hafter
      · rintro stop rfl
        have hsame := hsound.unchanged process operation readers stop rfl s' hs'
        rw [hmemory stop rfl, hview] at hsame
        exact some.inj hsame
    · intro hcareful
      -- an operation that has nothing to change does not write
      have hcases : ∀ s', step packages (.operate process operation readers ending) s = some s' →
          s' = s ∨ ∃ view view', s.views process = some view ∧
            operation.apply view = some view' ∧ (readers = [] ∨ ending.truncates) := by
        intro s' hs'
        rcases hview : s.views process with _ | view
        · simp [step, hview] at hs'
        · rcases happly : operation.apply view with _ | view'
          · simp only [step, hview, happly, some.injEq] at hs'
            exact .inl hs'.symm
          · simp only [step, hview, happly, ite_none_right_eq_some] at hs'
            exact .inr ⟨view, view', rfl, happly, hs'.1⟩
      refine ⟨fun s' hs' addr key hrecorded => or_iff_not_imp_left.2 fun htargets => ?_, ?_⟩
      · rcases hcases s' hs' with rfl | ⟨view, view', hview, happly, hreaders⟩
        · exact hrecorded
        · obtain ⟨t, ht, hfile, -⟩ := step_operate packages hview happly hreaders
          obtain rfl : t = s' := some.inj (ht.symm.trans hs')
          rw [hfile, recorded_left_iff reading hrecorded (holds_apply happly htargets key) ending]
          exact ((hcareful view view' hview happly hreaders).1 addr key hrecorded).resolve_left
            htargets
      · rintro _ _ _ stop ⟨⟩ s' hs'
        rcases hcases s' hs' with rfl | ⟨view, view', hview, happly, hreaders⟩
        · rfl
        · obtain ⟨t, ht, -, hmemory⟩ := step_operate packages hview happly hreaders
          obtain rfl : t = s' := some.inj (ht.symm.trans hs')
          rw [hmemory stop rfl, hview, (hcareful view view' hview happly hreaders).2 stop rfl]

/-! ### Whole runs -/

/-- In a run, the steps lose no unlock key of an address that they do not set or remove, and their
errors leave the entries as they were, exactly if all processes that write the file are careful. -/
theorem keys_survive_iff (reading : Reading packages) (events : List StoreEvent)
    (s : StoreState Text) :
    StepSystem.Along (step packages) (Sound reading) events s ↔
      StepSystem.Along (step packages) (Careful reading) events s :=
  ⟨StepSystem.Along.mono fun event s h => (sound_iff_careful reading event s).1 h,
    StepSystem.Along.mono fun event s h => (sound_iff_careful reading event s).2 h⟩

/-! ### A value that is no string -/

namespace Sample

/-- An entry of a document, whose `pubkey` may be an integer. -/
structure RawEntry where
  addr : String
  pubkey : Option (String ⊕ ℤ) := none
  unlockKey : Option String := none

/-- Reads an entry. The pin is a string, if it is there. -/
def RawEntry.read (entry : RawEntry) : Option StoredEntry :=
  match entry.pubkey with
  | none => some ⟨entry.addr, none, entry.unlockKey⟩
  | some (.inl b64) => some ⟨entry.addr, some b64, entry.unlockKey⟩
  | some (.inr _) => none

def RawEntry.write (entry : StoredEntry) : RawEntry where
  addr := entry.addr
  pubkey := entry.pubkey.map .inl
  unlockKey := entry.unlockKey

theorem read_write (entry : StoredEntry) : (RawEntry.write entry).read = some entry := by
  rcases entry with ⟨addr, _ | pubkey, unlockKey⟩ <;> rfl

theorem mapM_read_write (entries : List StoredEntry) :
    (entries.map RawEntry.write).mapM RawEntry.read = some entries := by
  induction entries with
  | nil => rfl
  | cons entry entries ih => simp [mapM_cons, read_write, ih]

def tomlPackages : StorePackages (Option (List RawEntry)) where
  fromStr text := text.bind fun raw => raw.mapM RawEntry.read
  toStringPretty entries := some (entries.map RawEntry.write)
  empty := none
  take _ _ := none
  fromStr_toStringPretty := mapM_read_write

/-- The entries of a document have an unlock key. -/
def HasRaw (raw : List RawEntry) (addr : String) (key : UnlockKey) : Prop :=
  ∃ entry ∈ raw, entry.addr = addr ∧ entry.unlockKey.bind decodeKey = some key

theorem hasRaw_iff {raw : List RawEntry} {entries : List StoredEntry}
    (h : raw.mapM RawEntry.read = some entries) (addr : String) (key : UnlockKey) :
    HasRaw raw addr key ↔ Has entries addr key := by
  induction raw generalizing entries with
  | nil =>
    obtain rfl : [] = entries := some.inj h
    simp [HasRaw, Has]
  | cons entry raw ih =>
    rw [mapM_cons] at h
    obtain ⟨first, hfirst, h⟩ := Option.bind_eq_some_iff.1 h
    obtain ⟨rest, hrest, h⟩ := Option.bind_eq_some_iff.1 h
    obtain rfl : first :: rest = entries := some.inj h
    have hsame : first.addr = entry.addr ∧ first.unlockKey = entry.unlockKey := by
      rcases entry with ⟨addr', _ | _ | _, unlockKey⟩ <;> cases hfirst <;> exact ⟨rfl, rfl⟩
    have hih := ih hrest
    simp only [HasRaw, Has, exists_mem_cons_iff] at hih ⊢
    rw [hih, hsame.1, hsame.2]

/-- A document records the unlock keys of its entries, also if one of them cannot be read. -/
def tomlReading : Reading tomlPackages where
  recorded text addr key := ∃ raw, text = some raw ∧ HasRaw raw addr key
  recorded_iff text entries h addr key := by
    obtain ⟨raw, rfl, hraw⟩ := Option.bind_eq_some_iff.1 h
    rw [← hasRaw_iff hraw addr key]
    exact ⟨fun ⟨_, heq, h⟩ => some.inj heq ▸ h, fun h => ⟨raw, rfl, h⟩⟩

/-- 32 bytes. -/
def sampleKey : UnlockKey := ⟨List.replicate 32 7, rfl⟩

/-- The address of a daemon on the same machine. -/
def socket : String := "/run/choreo.sock"

/-- An entry with an unlock key, and one of another server with a given pin. -/
def rawEntries (pubkey : String ⊕ ℤ) : List RawEntry :=
  [⟨socket, none, some (encodeKey sampleKey)⟩, ⟨"10.0.0.2:9443", some pubkey, none⟩]

/-- A file with these entries. -/
def withPin (pubkey : String ⊕ ℤ) : StoreState (Option (List RawEntry)) where
  file := some (some (rawEntries pubkey))

/-- A process loads the file and pins a third server. -/
def pinned : List StoreEvent :=
  [.load 0 true, .operate 0 (.pin "192.168.1.20:9443" sampleKey) [] .done]

/-- Where all pins can be read, the process that pins a server keeps the unlock key. -/
theorem sound_pinned :
    StepSystem.Along (step tomlPackages) (Sound tomlReading) pinned
      (withPin (.inl (encodeKey sampleKey))) := by
  rw [keys_survive_iff]
  refine ⟨trivial, ?_, ?_⟩
  · rintro view view' hview - -
    refine ⟨fun addr key ⟨text, htext, raw, hraw, hrecorded⟩ => .inr ?_, by rintro stop ⟨⟩⟩
    cases htext
    cases hraw
    obtain rfl := some.inj hview
    have hentries : tomlPackages.fromStr (some (rawEntries (.inl (encodeKey sampleKey)))) =
        some [⟨socket, none, some (encodeKey sampleKey)⟩,
          ⟨"10.0.0.2:9443", some (encodeKey sampleKey), none⟩] := rfl
    obtain ⟨entry, hentry, haddr, hkey⟩ := (hasRaw_iff hentries addr key).1 hrecorded
    refine holds_loadFrom hentries ⟨entry, hentry, haddr, hkey, fun b64 hb64 => ?_⟩
    rcases mem_cons.1 hentry with rfl | hentry
    · cases hb64
    · obtain rfl := mem_singleton.1 hentry
      rw [← some.inj hb64, decodeKey_encodeKey]
      rfl
  · split <;> exact trivial

/-- Where one pin is an integer, the process that pins a server loses the unlock key. -/
theorem not_sound_pinned :
    ¬ StepSystem.Along (step tomlPackages) (Sound tomlReading) pinned (withPin (.inr 5)) := by
  rintro ⟨-, hsound, -⟩
  have hbefore : Recorded tomlReading (withPin (.inr 5)).file socket sampleKey :=
    ⟨_, rfl, _, rfl, _, mem_cons_self, rfl, decodeKey_encodeKey sampleKey⟩
  rcases hsound.keeps _ rfl socket sampleKey hbefore with h | h
  · exact h
  · obtain ⟨text, htext, raw, hraw, entry, hentry, haddr, -⟩ := h
    cases htext
    cases hraw
    obtain rfl := mem_singleton.1 hentry
    exact absurd haddr (by decide)

end Sample

end KnownServers

end Choreo
