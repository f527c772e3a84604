import Choreo.Daemon.ProviderMap

/-!
# The accounts and their file

The daemon keeps the accounts of `accounts.toml` in memory. Others edit the file, a watcher thread
turns what it is told about the file into reload commands, and `add` and `remove` write the whole
file from memory (`choreo-daemon/src/accounts/mod.rs`, `daemon.rs`). An account is lost when the file
is written before an edit was reloaded. When saving fails, memory keeps what the file does not have.
-/

namespace Choreo

open List Option

/-! ### Files -/

variable (file : List AccountConfig)

/-- The accounts of a file by name: a later entry replaces an earlier one of the same name. -/
def recorded : Std.ExtTreeMap String AccountConfig :=
  file.foldl (fun m config => m.insert config.name config) ∅

/-- Whether a file can be loaded. -/
def validFile : Bool := file.all fun config => config.validate.toBool

/-- The surroundings of a command while the file has the given content, a missing file having no
accounts, and saving it fails or not. -/
def fileEnv (env : DaemonEnv) (file : List AccountConfig) (saveError : Option String) : DaemonEnv :=
  { env with readAccountsFile := fun _ => .ok file, saveAccounts := saveError }

/-- The daemon with the file, the changes that the watcher thread has not taken yet, and the reload
commands it has sent. -/
structure AccountsState where
  daemon : DaemonState
  file : List AccountConfig
  changes : ℕ := 0
  reloads : ℕ := 0

/-- What can happen: the file is edited; a change is told once more; the watcher thread takes some
changes and sends one reload; the daemon handles a reload; an account is added or removed. -/
inductive AccountsEvent
  | edit (file : List AccountConfig)
  | notify
  | coalesce (taken : ℕ)
  | reload
  | add (config : AccountConfig) (saveError : Option String)
  | remove (name : String) (saveError : Option String)

namespace AccountsState

variable (env : DaemonEnv)

/-- What a command leaves behind: when it succeeds, the file was written from memory. -/
def afterSave (result : Except String Unit) (daemon : DaemonState) (s : AccountsState) :
    AccountsState :=
  match result with
  | .ok () =>
    { s with daemon := daemon, file := daemon.accounts.allConfigs, changes := s.changes + 1 }
  | .error _ => { s with daemon := daemon }

def addResult (config : AccountConfig) (saveError : Option String) (s : AccountsState) :
    Except String Unit :=
  (s.daemon.accounts.add (fileEnv env s.file saveError) config).2

def removeResult (name : String) (saveError : Option String) (s : AccountsState) :
    Except String Unit :=
  (s.daemon.accounts.remove (fileEnv env s.file saveError) name).2

def afterCommand (command : DaemonCommand) (saveError : Option String) (s : AccountsState) :
    DaemonState :=
  (s.daemon.handleCommand (fileEnv env s.file saveError) command).1

variable (event : AccountsEvent) (s : AccountsState)

/-- What happens at an event. Edits are atomic and leave a file that can be loaded. -/
def step : Option AccountsState :=
  match event with
  | .edit file =>
    if validFile file then some { s with file := file, changes := s.changes + 1 } else none
  | .notify => some { s with changes := s.changes + 1 }
  | .coalesce taken =>
    if 0 < taken ∧ taken ≤ s.changes then
      some { s with changes := s.changes - taken, reloads := s.reloads + 1 }
    else none
  | .reload =>
    if 0 < s.reloads then
      some { s with daemon := s.afterCommand env .accountsReload none, reloads := s.reloads - 1 }
    else none
  | .add config saveError =>
    some (s.afterSave (s.addResult env config saveError)
      (s.afterCommand env (.addAccount config) saveError))
  | .remove name saveError =>
    some (s.afterSave (s.removeResult env name saveError)
      (s.afterCommand env (.removeAccount name) saveError))

/-! ### Losing no edit -/

def MayChange (name : String) : AccountsEvent → Prop
  | .edit _ => True
  | .add config _ => config.name = name
  | .remove removed _ => removed = name
  | _ => False

def KeepsEdits : Prop :=
  ∀ s', step env event s = some s' → ∀ name, ¬ MayChange name event →
    (recorded s'.file)[name]? = (recorded s.file)[name]?

/-- A step that returns an error leaves the accounts in memory as they were. -/
def Restores : Prop :=
  ∀ s', step env event s = some s' →
    match event with
    | .add config saveError =>
      s.addResult env config saveError ≠ .ok () → s'.daemon.accounts = s.daemon.accounts
    | .remove name saveError =>
      s.removeResult env name saveError ≠ .ok () → s'.daemon.accounts = s.daemon.accounts
    | _ => True

/-- Once all reloads are handled, memory is what loading the file gives. -/
def Converged : Prop :=
  s.changes = 0 → s.reloads = 0 → ∃ path, s.daemon.accounts.configPath = some path ∧
    AccountManager.load (fileEnv env s.file none) path = .ok s.daemon.accounts

def AgreesExcept (name : String) (s : AccountsState) : Prop :=
  ∀ other, other ≠ name → s.daemon.accounts.accounts[other]? = (recorded s.file)[other]?

/-- A step is sound if adding or removing an account is refused, or the file can be saved and memory
has all other accounts as the file has them. -/
def Sound : Prop :=
  match event with
  | .add config saveError =>
    config.validate ≠ .ok () ∨ s.daemon.accounts.accounts.contains config.name = true ∨
      (saveError = none ∧ s.AgreesExcept config.name)
  | .remove name saveError =>
    s.daemon.accounts.accounts.contains name = false ∨
      (saveError = none ∧ s.AgreesExcept name)
  | _ => True

def Started : Prop :=
  validFile s.file = true ∧ ∃ path,
    AccountManager.load (fileEnv env s.file none) path = .ok s.daemon.accounts

end AccountsState

/-! ### Loading what was saved -/

theorem get_foldl_insert (m : Std.ExtTreeMap String AccountConfig)
    (name : String) :
    (file.foldl (fun m config => m.insert config.name config) m)[name]? =
      (file.filter (·.name = name)).getLast?.or m[name]? := by
  induction file generalizing m with
  | nil => simp
  | cons config file ih =>
    rw [foldl_cons, ih, Std.ExtTreeMap.get_insert, filter_cons]
    by_cases hname : config.name = name
    · simp [hname, List.getLast?_cons]
    · simp [hname, Ne.symm hname]

theorem get_recorded (name : String) :
    (recorded file)[name]? = (file.filter (·.name = name)).getLast? := by
  rw [recorded, get_foldl_insert]
  simp

variable {file : List AccountConfig}

theorem mem_of_get_recorded {name : String} {config : AccountConfig}
    (h : (recorded file)[name]? = some config) : config ∈ file ∧ config.name = name := by
  rw [get_recorded] at h
  simpa using mem_filter.1 (List.mem_of_getLast? h)

/-- The accounts that are loaded after saving are those in memory. -/
theorem recorded_allConfigs {manager : AccountManager} (hnamed : manager.Named) :
    recorded manager.allConfigs = manager.accounts := by
  ext name config
  constructor
  · intro h
    obtain ⟨hmem, hname⟩ := mem_of_get_recorded h
    obtain ⟨key, hkey⟩ := Std.ExtTreeMap.mem_values_iff.1 hmem
    rw [← hname, hnamed key config hkey]
    exact hkey
  · intro h
    have hmem : config ∈ manager.allConfigs.filter (·.name = name) :=
      mem_filter.2 ⟨Std.ExtTreeMap.mem_values_iff.2 ⟨name, h⟩, by
        simpa using hnamed name config h⟩
    obtain ⟨last, hlast⟩ := List.getLast?_isSome.2 (ne_nil_of_mem hmem) |>
      isSome_iff_exists.1
    rw [get_recorded, hlast]
    obtain ⟨hvalue, hname⟩ := mem_filter.1 (List.mem_of_getLast? hlast)
    obtain ⟨key, hkey⟩ := Std.ExtTreeMap.mem_values_iff.1 hvalue
    have hkeyname : last.name = key := hnamed key last hkey
    have hlastname : last.name = name := by simpa using hname
    rw [← hkeyname, hlastname, h] at hkey
    exact hkey.symm

theorem load_fileEnv {env : DaemonEnv} (hvalid : validFile file = true)
    (saveError : Option String) (path : PathBuf) :
    AccountManager.load (fileEnv env file saveError) path =
      .ok ⟨some path, recorded file⟩ := by
  have hforM : file.forM AccountConfig.validate = .ok () := by
    induction file with
    | nil => rfl
    | cons config file ih =>
      rw [validFile, all_cons, Bool.and_eq_true] at hvalid
      rcases hconfig : config.validate with e | ⟨⟩
      · rw [hconfig] at hvalid
        exact absurd hvalid.1 (by simp [Except.toBool])
      · change (config.validate >>= fun _ => file.forM AccountConfig.validate) = _
        rw [hconfig]
        exact ih hvalid.2
  rw [AccountManager.load]
  change (file.forM AccountConfig.validate >>= fun _ => _) = _
  rw [hforM]
  rfl

theorem named_recorded (file : List AccountConfig) (path : Option PathBuf) :
    AccountManager.Named ⟨path, recorded file⟩ :=
  fun _ _ h => (mem_of_get_recorded h).2

theorem validate_of_get_recorded (hvalid : validFile file = true)
    {name : String} {config : AccountConfig} (h : (recorded file)[name]? = some config) :
    config.validate = .ok () := by
  have hconfig := List.all_eq_true.1 hvalid config (mem_of_get_recorded h).1
  rcases hresult : config.validate with e | ⟨⟩
  · rw [hresult] at hconfig
    exact absurd hconfig (by simp [Except.toBool])
  · rfl

/-! ### The handlers and memory -/

namespace DaemonState

theorem handleAddAccount_accounts (env : DaemonEnv) (config : AccountConfig) (d : DaemonState) :
    (d.handleAddAccount env config).1.accounts = (d.accounts.add env config).1 := by
  rw [handleAddAccount]
  rcases d.accounts.add env config with ⟨accounts, e | ⟨⟩⟩
  · rfl
  · dsimp only
    split
    · exact (resolveAccountProvider_accounts env config.name _ _).1
    · rfl

theorem handleRemoveAccount_accounts (env : DaemonEnv) (name : String) (d : DaemonState) :
    (d.handleRemoveAccount env name).1.accounts = (d.accounts.remove env name).1 := by
  rw [handleRemoveAccount]
  rcases d.accounts.remove env name with ⟨accounts, e | ⟨⟩⟩ <;> rfl

/-- A reload leaves in memory what loading the file gives, also when it finds nothing to do. -/
theorem handleAccountsReload_accounts {env : DaemonEnv} {path : PathBuf} {fresh : AccountManager}
    {d : DaemonState} (hpath : d.accounts.configPath = some path)
    (hload : AccountManager.load env path = .ok fresh) (hfresh : fresh.configPath = some path)
    (hnamed : d.accounts.Named) : (d.handleAccountsReload env).1.accounts = fresh := by
  rw [handleAccountsReload, hpath]
  simp only [hload]
  split_ifs with hsame
  · have haccounts : d.accounts.accounts = fresh.accounts := by
      rw [← recorded_allConfigs hnamed, ← recorded_allConfigs (named_load hload), hsame]
    rcases hd : d.accounts with ⟨configPath, accounts⟩
    rcases fresh with ⟨configPath', accounts'⟩
    rw [hd] at hpath haccounts
    exact congr (congrArg AccountManager.mk (hpath.trans hfresh.symm)) haccounts
  · exact (get_reloadAccounts rfl rfl fresh d).1

end DaemonState

namespace AccountManager

variable (env : DaemonEnv) (manager : AccountManager)

theorem add_cases (config : AccountConfig) :
    ((config.validate ≠ .ok () ∨ manager.accounts.contains config.name = true) ∧
      (manager.add env config).1 = manager ∧ (manager.add env config).2 ≠ .ok ()) ∨
    (config.validate = .ok () ∧ manager.accounts.contains config.name = false ∧
      manager.add env config =
        ({ manager with accounts := manager.accounts.insert config.name config }, save env)) := by
  rw [add]
  rcases hvalid : config.validate with e | ⟨⟩
  · exact .inl ⟨.inl (by simp), rfl, by simp⟩
  · by_cases hcontains : manager.accounts.contains config.name = true
    · exact .inl ⟨.inr hcontains, by simp [hcontains], by simp [hcontains]⟩
    · exact .inr ⟨rfl, Bool.eq_false_of_not_eq_true hcontains, by simp [hcontains]⟩

theorem remove_cases (name : String) :
    (manager.accounts.contains name = false ∧
      (manager.remove env name).1 = manager ∧ (manager.remove env name).2 ≠ .ok ()) ∨
    (manager.accounts.contains name = true ∧
      manager.remove env name =
        ({ manager with accounts := manager.accounts.erase name }, save env)) := by
  rw [remove]
  by_cases hcontains : manager.accounts.contains name = true
  · exact .inr ⟨hcontains, by simp [hcontains]⟩
  · exact .inl ⟨Bool.eq_false_of_not_eq_true hcontains, by simp [hcontains], by simp [hcontains]⟩

end AccountManager

namespace AccountsState

variable {env : DaemonEnv} {s s' : AccountsState} {event : AccountsEvent}

/-! ### What holds of every state -/

/-- Memory was loaded from the file, its accounts have their names and are valid, and so are those
of the file. -/
structure Formed (s : AccountsState) : Prop where
  path : ∃ path, s.daemon.accounts.configPath = some path
  named : s.daemon.accounts.Named
  valid : ∀ (name : String) (config : AccountConfig),
    s.daemon.accounts.accounts[name]? = some config → config.validate = .ok ()
  file : validFile s.file = true

/-- Unless a reload is to come, memory has what the file has. -/
def UpToDate (s : AccountsState) : Prop :=
  s.changes = 0 → s.reloads = 0 → s.daemon.accounts.accounts = recorded s.file

theorem converged_of_upToDate (hformed : s.Formed) (h : s.UpToDate) : Converged env s := by
  intro hchanges hreloads
  obtain ⟨path, hpath⟩ := hformed.path
  refine ⟨path, hpath, ?_⟩
  rw [load_fileEnv hformed.file, ← h hchanges hreloads, ← hpath]

theorem formed_of_started (h : Started env s) : s.Formed ∧ s.UpToDate := by
  obtain ⟨hvalid, path, hload⟩ := h
  rw [load_fileEnv hvalid] at hload
  have haccounts : s.daemon.accounts = ⟨some path, recorded s.file⟩ := (Except.ok.inj hload).symm
  refine ⟨⟨⟨path, by rw [haccounts]⟩, ?_, ?_, hvalid⟩, fun _ _ => by rw [haccounts]⟩
  · rw [haccounts]
    exact named_recorded s.file _
  · intro name config hconfig
    rw [haccounts] at hconfig
    exact validate_of_get_recorded hvalid hconfig

theorem validFile_allConfigs {manager : AccountManager}
    (hvalid : ∀ (name : String) (config : AccountConfig),
      manager.accounts[name]? = some config → config.validate = .ok ()) :
    validFile manager.allConfigs = true := by
  refine List.all_eq_true.2 fun config hconfig => ?_
  obtain ⟨name, hname⟩ := Std.ExtTreeMap.mem_values_iff.1 hconfig
  rw [hvalid name config hname]
  rfl

variable {result : Except String Unit} {daemon : DaemonState}

theorem formed_afterSave (hs : s.Formed)
    (hpath : daemon.accounts.configPath = s.daemon.accounts.configPath)
    (hnamed : daemon.accounts.Named)
    (hvalid : ∀ (name : String) (config : AccountConfig),
      daemon.accounts.accounts[name]? = some config → config.validate = .ok ()) :
    (s.afterSave result daemon).Formed := by
  have hpath' := hs.path
  rw [← hpath] at hpath'
  rcases result with e | ⟨⟩
  · exact ⟨hpath', hnamed, hvalid, hs.file⟩
  · exact ⟨hpath', hnamed, hvalid, validFile_allConfigs hvalid⟩

theorem afterCommand_add (env : DaemonEnv) (config : AccountConfig) (saveError : Option String) (s : AccountsState) :
    (s.afterCommand env (.addAccount config) saveError).accounts =
      (s.daemon.accounts.add (fileEnv env s.file saveError) config).1 :=
  DaemonState.handleAddAccount_accounts _ config s.daemon

theorem afterCommand_remove (env : DaemonEnv) (name : String) (saveError : Option String) (s : AccountsState) :
    (s.afterCommand env (.removeAccount name) saveError).accounts =
      (s.daemon.accounts.remove (fileEnv env s.file saveError) name).1 :=
  DaemonState.handleRemoveAccount_accounts _ name s.daemon

theorem afterCommand_reload (env : DaemonEnv) (hs : s.Formed) :
    (s.afterCommand env .accountsReload none).accounts =
      ⟨s.daemon.accounts.configPath, recorded s.file⟩ := by
  obtain ⟨path, hpath⟩ := hs.path
  rw [hpath]
  exact DaemonState.handleAccountsReload_accounts hpath (load_fileEnv hs.file none path) rfl
    hs.named

/-- Every step keeps names and validity. -/
theorem formed_step (hs : s.Formed) (hstep : step env event s = some s') : s'.Formed := by
  rcases event with file | _ | taken | _ | ⟨config, saveError⟩ | ⟨name, saveError⟩
  · rw [step, ite_none_right_eq_some] at hstep
    obtain ⟨hvalid, rfl⟩ := hstep.imp_right some.inj
    exact ⟨hs.path, hs.named, hs.valid, hvalid⟩
  · cases hstep
    exact ⟨hs.path, hs.named, hs.valid, hs.file⟩
  · rw [step, ite_none_right_eq_some] at hstep
    obtain ⟨-, rfl⟩ := hstep.imp_right some.inj
    exact ⟨hs.path, hs.named, hs.valid, hs.file⟩
  · rw [step, ite_none_right_eq_some] at hstep
    obtain ⟨-, rfl⟩ := hstep.imp_right some.inj
    have haccounts := afterCommand_reload env hs
    refine ⟨?_, ?_, ?_, hs.file⟩
    · rw [haccounts]
      exact hs.path
    · rw [haccounts]
      exact named_recorded s.file _
    · intro name config hconfig
      rw [haccounts] at hconfig
      exact validate_of_get_recorded hs.file hconfig
  · cases hstep
    have haccounts := afterCommand_add env config saveError s
    rcases AccountManager.add_cases (fileEnv env s.file saveError) s.daemon.accounts
        config with ⟨-, hsame, -⟩ | ⟨hvalid, -, hadded⟩
    · rw [hsame] at haccounts
      exact formed_afterSave hs (by rw [haccounts]) (haccounts ▸ hs.named) (haccounts ▸ hs.valid)
    · rw [hadded] at haccounts
      refine formed_afterSave hs (by rw [haccounts]) ?_ ?_
      · rw [haccounts]
        exact DaemonState.named_insert hs.named config
      · intro name other hother
        simp only [haccounts, Std.ExtTreeMap.get_insert] at hother
        split_ifs at hother
        · cases hother
          exact hvalid
        · exact hs.valid name other hother
  · cases hstep
    have haccounts := afterCommand_remove env name saveError s
    rcases AccountManager.remove_cases (fileEnv env s.file saveError) s.daemon.accounts
        name with ⟨-, hsame, -⟩ | ⟨-, hremoved⟩
    · rw [hsame] at haccounts
      exact formed_afterSave hs (by rw [haccounts]) (haccounts ▸ hs.named) (haccounts ▸ hs.valid)
    · rw [hremoved] at haccounts
      refine formed_afterSave hs (by rw [haccounts]) ?_ ?_
      · rw [haccounts]
        exact DaemonState.named_erase hs.named name
      · intro key other hother
        simp only [haccounts, Std.ExtTreeMap.get_erase] at hother
        split_ifs at hother
        exact hs.valid key other hother

/-! ### What a step loses -/

/-- A command that writes the file when it succeeds keeps the other accounts of the file exactly if
memory then has them as the file has them. -/
theorem keepsEdits_iff (env : DaemonEnv) (event : AccountsEvent) {name : String}
    (hstep : step env event s = some (s.afterSave result daemon))
    (hmay : ∀ other, MayChange other event ↔ name = other) (hnamed : daemon.accounts.Named) :
    KeepsEdits env event s ↔ (result = .ok () → ∀ other, other ≠ name →
      daemon.accounts.accounts[other]? = (recorded s.file)[other]?) := by
  rcases result with e | ⟨⟩
  · refine ⟨fun _ h => (nomatch h), fun _ s' hs' other _ => ?_⟩
    obtain rfl := some.inj (hstep.symm.trans hs')
    rfl
  · have hfile : recorded (s.afterSave (.ok ()) daemon).file = daemon.accounts.accounts :=
      recorded_allConfigs hnamed
    constructor
    · intro h _ other hother
      rw [← hfile]
      exact h _ hstep other fun hmay' => hother ((hmay other).1 hmay').symm
    · intro h s' hs' other hother
      obtain rfl := some.inj (hstep.symm.trans hs')
      rw [hfile]
      exact h rfl other fun heq => hother ((hmay other).2 heq.symm)

theorem save_fileEnv (file : List AccountConfig) (saveError : Option String) :
    AccountManager.save (fileEnv env file saveError) = .ok () ↔ saveError = none := by
  rw [AccountManager.save, fileEnv]
  rcases saveError with _ | e <;> simp

theorem afterSave_accounts (result : Except String Unit) (daemon : DaemonState) :
    (s.afterSave result daemon).daemon.accounts = daemon.accounts := by
  rcases result with e | ⟨⟩ <;> rfl

/-- Adding an account loses nothing exactly if the step is sound. -/
theorem add_lossless_iff (config : AccountConfig) (saveError : Option String) (hs : s.Formed) :
    KeepsEdits env (.add config saveError) s ∧ Restores env (.add config saveError) s ↔
      Sound (.add config saveError) s := by
  have haccounts := afterCommand_add env config saveError s
  have hkeeps := keepsEdits_iff env (.add config saveError) rfl
    (fun other => Iff.rfl) (haccounts ▸ DaemonState.named_add _ config hs.named)
  rw [hkeeps, addResult, haccounts]
  rcases AccountManager.add_cases (fileEnv env s.file saveError) s.daemon.accounts
        config with ⟨hrefused, hsame, hfailed⟩ | ⟨hvalid, habsent, hadded⟩
  · refine iff_of_true ⟨fun h => absurd h hfailed, fun s' hs' _ => ?_⟩ ?_
    · cases hs'
      rw [afterSave_accounts, haccounts, hsame]
    · rcases hrefused with hinvalid | hpresent
      · exact .inl hinvalid
      · exact .inr (.inl hpresent)
  · rw [hadded, save_fileEnv]
    have hagrees : (∀ other, other ≠ config.name →
        (s.daemon.accounts.accounts.insert config.name config)[other]? =
          (recorded s.file)[other]?) ↔ s.AgreesExcept config.name := by
      refine forall₂_congr fun other hother => ?_
      rw [Std.ExtTreeMap.get_insert, if_neg hother]
    constructor
    · rintro ⟨hkept, hrestored⟩
      have hsaved : saveError = none := by
        by_contra hfailed
        have hsame := hrestored _ rfl (by rwa [addResult, hadded, Ne, save_fileEnv])
        rw [afterSave_accounts, haccounts, hadded] at hsame
        have hcontains := congrArg (fun m : AccountManager => m.accounts.contains config.name) hsame
        simp [habsent] at hcontains
      exact .inr (.inr ⟨hsaved, hagrees.1 (hkept hsaved)⟩)
    · rintro (hinvalid | hpresent | ⟨hsaved, h⟩)
      · exact absurd hvalid hinvalid
      · rw [habsent] at hpresent
        exact absurd hpresent Bool.false_ne_true
      · refine ⟨fun _ => hagrees.2 h, fun s' _ hfailed => absurd ?_ hfailed⟩
        rw [addResult, hadded]
        exact (save_fileEnv _ _).2 hsaved

/-- Removing an account loses nothing exactly if the step is sound. -/
theorem remove_lossless_iff (name : String) (saveError : Option String) (hs : s.Formed) :
    KeepsEdits env (.remove name saveError) s ∧ Restores env (.remove name saveError) s ↔
      Sound (.remove name saveError) s := by
  have haccounts := afterCommand_remove env name saveError s
  rcases AccountManager.remove_cases (fileEnv env s.file saveError) s.daemon.accounts
        name with ⟨habsent, hsame, hfailed⟩ | ⟨hpresent, hremoved⟩
  · rw [keepsEdits_iff env (.remove name saveError) rfl (fun other => Iff.rfl)
      (by rw [haccounts, hsame]; exact hs.named)]
    refine iff_of_true ⟨fun h => absurd h hfailed, fun s' hs' _ => ?_⟩ (.inl habsent)
    cases hs'
    rw [afterSave_accounts, haccounts, hsame]
  · rw [keepsEdits_iff env (.remove name saveError) rfl (fun other => Iff.rfl)
      (by rw [haccounts, hremoved]; exact DaemonState.named_erase hs.named name),
      removeResult, haccounts, hremoved, save_fileEnv]
    have hagrees : (∀ other, other ≠ name →
        (s.daemon.accounts.accounts.erase name)[other]? = (recorded s.file)[other]?) ↔
          s.AgreesExcept name := by
      refine forall₂_congr fun other hother => ?_
      rw [Std.ExtTreeMap.get_erase, if_neg hother]
    constructor
    · rintro ⟨hkept, hrestored⟩
      have hsaved : saveError = none := by
        by_contra hfailed
        have hsame := hrestored _ rfl (by rwa [removeResult, hremoved, Ne, save_fileEnv])
        rw [afterSave_accounts, haccounts, hremoved] at hsame
        have hcontains := congrArg (fun m : AccountManager => m.accounts.contains name) hsame
        simp [hpresent] at hcontains
      exact .inr ⟨hsaved, hagrees.1 (hkept hsaved)⟩
    · rintro (habsent | ⟨hsaved, h⟩)
      · rw [hpresent] at habsent
        exact absurd habsent.symm Bool.false_ne_true
      · refine ⟨fun _ => hagrees.2 h, fun s' _ hfailed => absurd ?_ hfailed⟩
        rw [removeResult, hremoved]
        exact (save_fileEnv _ _).2 hsaved

/-- A step loses nothing exactly if it is sound. -/
theorem step_lossless_iff (event : AccountsEvent) (hs : s.Formed) :
    KeepsEdits env event s ∧ Restores env event s ↔ Sound event s := by
  rcases event with file | _ | taken | _ | ⟨config, saveError⟩ | ⟨name, saveError⟩
  · exact iff_of_true ⟨fun _ _ _ h => absurd trivial h, fun _ _ => trivial⟩ trivial
  · refine iff_of_true ⟨fun s' hs' _ _ => ?_, fun _ _ => trivial⟩ trivial
    cases hs'
    rfl
  · refine iff_of_true ⟨fun s' hs' _ _ => ?_, fun _ _ => trivial⟩ trivial
    rw [step, ite_none_right_eq_some] at hs'
    obtain ⟨-, rfl⟩ := hs'.imp_right some.inj
    rfl
  · refine iff_of_true ⟨fun s' hs' _ _ => ?_, fun _ _ => trivial⟩ trivial
    rw [step, ite_none_right_eq_some] at hs'
    obtain ⟨-, rfl⟩ := hs'.imp_right some.inj
    rfl
  · exact add_lossless_iff config saveError hs
  · exact remove_lossless_iff name saveError hs

theorem upToDate_afterSave
    (h : s.UpToDate) (hnamed : daemon.accounts.Named)
    (hrestored : result ≠ .ok () → daemon.accounts = s.daemon.accounts) :
    (s.afterSave result daemon).UpToDate := by
  rcases result with e | ⟨⟩
  · intro hchanges hreloads
    rw [afterSave_accounts, hrestored (fun h => nomatch h)]
    exact h hchanges hreloads
  · intro _ _
    exact (recorded_allConfigs hnamed).symm

theorem upToDate_step (hs : s.Formed) (h : s.UpToDate) (hrestores : Restores env event s)
    (hstep : step env event s = some s') : s'.UpToDate := by
  have hformed := formed_step hs hstep
  rcases event with file | _ | taken | _ | ⟨config, saveError⟩ | ⟨name, saveError⟩
  · rw [step, ite_none_right_eq_some] at hstep
    obtain ⟨-, rfl⟩ := hstep.imp_right some.inj
    exact fun hchanges => absurd hchanges (Nat.succ_ne_zero _)
  · cases hstep
    exact fun hchanges => absurd hchanges (Nat.succ_ne_zero _)
  · rw [step, ite_none_right_eq_some] at hstep
    obtain ⟨-, rfl⟩ := hstep.imp_right some.inj
    exact fun _ hreloads => absurd hreloads (Nat.succ_ne_zero _)
  · rw [step, ite_none_right_eq_some] at hstep
    obtain ⟨-, rfl⟩ := hstep.imp_right some.inj
    intro _ _
    rw [afterCommand_reload env hs]
  · cases hstep
    have hnamed := hformed.named
    rw [afterSave_accounts] at hnamed
    refine upToDate_afterSave h hnamed fun hfailed => ?_
    rw [← afterSave_accounts (s.addResult env config saveError)]
    exact hrestores _ rfl hfailed
  · cases hstep
    have hnamed := hformed.named
    rw [afterSave_accounts] at hnamed
    refine upToDate_afterSave h hnamed fun hfailed => ?_
    rw [← afterSave_accounts (s.removeResult env name saveError)]
    exact hrestores _ rfl hfailed

/-! ### Whole runs -/

/-- A run loses no edit: its steps keep the accounts of the file that they may not change, those
that fail leave memory alone, and memory is what the file has whenever no reload is to come. -/
structure Lossless (env : DaemonEnv) (events : List AccountsEvent) (s : AccountsState) : Prop where
  kept : StepSystem.Along (step env) (KeepsEdits env) events s
  restored : StepSystem.Along (step env) (Restores env) events s
  converged : ∀ before t, before <+: events → StepSystem.run (step env) before s = some t →
    Converged env t

theorem along_lossless_iff (env : DaemonEnv) (events : List AccountsEvent) {s : AccountsState}
    (hformed : s.Formed) :
    StepSystem.Along (step env) (fun event s =>
      KeepsEdits env event s ∧ Restores env event s ↔ Sound event s) events s :=
  StepSystem.along_of_invariant (I := Formed) (fun event _ h => step_lossless_iff event h)
    (fun _ _ _ h hstep => formed_step h hstep) hformed

/-- A run that loses no edit has sound steps only. -/
theorem Lossless.sound {env : DaemonEnv} {events : List AccountsEvent} {s : AccountsState}
    (h : Lossless env events s) (hstarted : Started env s) :
    StepSystem.Along (step env) Sound events s := by
  have hiff := along_lossless_iff env events (formed_of_started hstarted).1
  exact ((h.kept.and h.restored).and hiff).mono fun _ _ h => h.2.1 h.1

/-- A run from a daemon that has loaded the accounts loses no edit exactly if every step that adds
or removes an account is refused, or can save a memory that has all other accounts as the file has
them. -/
theorem lossless_iff_sound (env : DaemonEnv) (events : List AccountsEvent) (s : AccountsState)
    (hstarted : Started env s) :
    Lossless env events s ↔ StepSystem.Along (step env) Sound events s := by
  obtain ⟨hformed, hupToDate⟩ := formed_of_started hstarted
  have hiff := along_lossless_iff env events hformed
  constructor
  · exact fun hlossless => hlossless.sound hstarted
  · intro hsound
    have hboth := (hsound.and hiff).mono fun _ _ h => h.2.2 h.1
    have hrestored := hboth.mono fun _ _ h => h.2
    refine ⟨hboth.mono fun _ _ h => h.1, hrestored, ?_⟩
    rintro before t ⟨rest, rfl⟩ hrun
    have hbefore := ((StepSystem.along_append hrun).1 hrestored).1
    have ht := StepSystem.invariant_of_along (I := fun s => s.Formed ∧ s.UpToDate)
      (fun _ _ _ hrestores h hstep =>
        ⟨formed_step h.1 hstep, upToDate_step h.1 h.2 hrestores hstep⟩)
      ⟨hformed, hupToDate⟩ hbefore hrun
    exact converged_of_upToDate ht.1 ht.2

/-! ### An account that is added before an edit is reloaded -/

def emptyFile : AccountsState where
  daemon := { accounts := { configPath := some (.utf8 "accounts.toml") } }
  file := []

theorem started_emptyFile : Started Sample.daemonEnv emptyFile :=
  ⟨rfl, .utf8 "accounts.toml", rfl⟩

def reloadedFirst : List AccountsEvent :=
  [.edit [DaemonState.simpleAccount "work" "anthropic"], .coalesce 1, .reload,
    .add (DaemonState.simpleAccount "home" "openai") none]

theorem lossless_iff_sound_reloadedFirst :
    Lossless Sample.daemonEnv reloadedFirst emptyFile ↔
      StepSystem.Along (step Sample.daemonEnv) Sound reloadedFirst emptyFile :=
  lossless_iff_sound Sample.daemonEnv reloadedFirst emptyFile started_emptyFile

/-- An account that an editor added is lost when another one is added before the reload. -/
theorem not_lossless_addedFirst :
    ¬ Lossless Sample.daemonEnv
      [.edit [DaemonState.simpleAccount "work" "anthropic"],
        .add (DaemonState.simpleAccount "home" "openai") none]
      emptyFile := by
  intro hlossless
  obtain ⟨-, hinvalid | hpresent | ⟨-, hagrees⟩, -⟩ := hlossless.sound started_emptyFile
  · exact hinvalid rfl
  · exact absurd hpresent (by decide)
  · have h := hagrees "work" (by decide)
    rw [get_recorded] at h
    exact absurd h (by decide)

end AccountsState

end Choreo
