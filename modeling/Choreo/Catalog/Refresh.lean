import Choreo.Catalog.Overlay
import Choreo.Library.Runs
import Choreo.Text

/-!
# The refresh of the provider catalog

One thread of the daemon fetches the model list of a server with conditional requests
(`choreo-daemon/src/catalog.rs`). It holds the normalised list, the base, with its etag. What it
fetches it sends to the command loop of the daemon, which merges the overlays over it, swaps the
catalog, and writes first the base to a cache file and then the etag to the database
(`choreo-daemon/src/daemon.rs`). A restart puts the base of the file together with the etag of the
database.
-/

namespace Choreo.Refresh

open Overlay List Option

/-- A normalised model list, and a catalog: providers with their models. -/
abbrev Base := List Overlay.ProviderEntry

/-- What the refresh relies on: the etags of the server, one for each content and without space
around them, the reading of a content, the TOML parser, and the data in the binary. -/
structure Setup (Content : Type) where
  etagOf : Content → String
  etagOf_injective : Function.Injective etagOf
  etagOf_trimmed : ∀ content, trim (etagOf content) = etagOf content
  normalizeModelsdev : Content → Base
  parseToml : String → Option Toml
  loadBundledBase : Base
  loadCatalog : Base
  bundledOverlaySrc : String

/-- A `CatalogBaseChanged` on its way to the command loop, without the requesters that wait for a
reply. -/
structure CatalogBaseChanged where
  base : Base
  etag : Option String
  userOverlay : Option String
  persist : Bool
deriving DecidableEq

/-- The content of the server, the cache file and the stored etag, the state of the maintenance
thread, the commands on their way, and the catalog in use. -/
structure State (Content : Type) where
  current : Content
  bin : Option (Base)
  storedEtag : Option String
  base : Base
  etag : Option String
  lastAppliedUserOverlay : Option String
  queue : List CatalogBaseChanged
  inUse : Base
deriving DecidableEq

/-- What a fetch returns, the body already normalised. -/
inductive FetchOutcome
  | notModified
  | fetched (base : Base) (etag : Option String)
  | error
deriving DecidableEq

/-- What the server and the network make of a request: the answer of the server, with or without an
etag on a 200; a 200 with a body that does not normalise to a catalog; an error. -/
inductive Reply
  | answered (withEtag : Bool)
  | unreadable (etag : Option String)
  | failed
deriving DecidableEq

/-- How the two writes of a persisted catalog go. -/
inductive Writes
  | written
  | binFails
  | etagFails
deriving DecidableEq

/-- What can happen. A restart says whether the process died between the two writes, whether the
cache file and the stored etag can be read, and what the overlay file holds (`none`: unreadable). -/
inductive Label (Content : Type)
  | publish (content : Content)
  | refresh (force : Bool) (reply : Reply)
  | reloadUserOverlay (read : Option (Option String))
  | handle (writes : Writes)
  | restart (midWrite loads reads : Bool) (overlay : Option (Option String))

variable {Content : Type} (setup : Setup Content)

/-- A quoted text of at least one character, possibly marked as weak. -/
def isWellFormedEtag (etag : String) : Bool :=
  let body := if ['W', '/'] <+: etag.toList then etag.toList.drop 2 else etag.toList
  3 ≤ body.length && body.head? = some '\"' && body.getLast? = some '\"'

def shouldSendIfNoneMatch : Option String → Bool
  | some etag => isWellFormedEtag etag
  | none => false

/-- An etag of nothing but white space counts as none. -/
def getCatalogEtag (stored : Option String) : Option String :=
  (stored.map trim).filter fun etag => etag ≠ ""

namespace State

variable (s : State Content)

/-- The answer of the server to a request: 304 exactly when the request is conditional and its etag
is the one of the current content. -/
def answer [DecidableEq Content] (force withEtag : Bool) : FetchOutcome :=
  if !force && shouldSendIfNoneMatch s.etag && decide (s.etag = some (setup.etagOf s.current)) then
    .notModified
  else
    .fetched (setup.normalizeModelsdev s.current)
      (if withEtag then some (setup.etagOf s.current) else none)

def fetchModelsdev [DecidableEq Content] (force : Bool) : Reply → FetchOutcome
  | .answered withEtag => s.answer setup force withEtag
  | .unreadable etag => .fetched [] etag
  | .failed => .error

/-- What the maintenance thread does with the outcome of a fetch. -/
def runRefreshImpl : FetchOutcome → State Content
  | .notModified => s
  | .fetched newBase etag =>
    if newBase.isEmpty then s
    else
      { s with
        base := newBase
        etag := etag
        queue := s.queue ++ [{
          base := newBase
          etag := etag
          userOverlay := s.lastAppliedUserOverlay
          persist := true }] }
  | .error => s

/-- Reads the user overlay again, and hands it on if it changed. -/
def reloadUserOverlay : Option (Option String) → State Content
  | some contents =>
    if s.lastAppliedUserOverlay ≠ contents then
      { s with
        lastAppliedUserOverlay := contents
        queue := s.queue ++ [{
          base := s.base
          etag := s.etag
          userOverlay := contents
          persist := false }] }
    else s
  | none => s

end State

def mergeCatalogLayers (base : Base) (userOverlay : Option String) :
    Base :=
  let effective := mergeOverlay base (setup.parseToml setup.bundledOverlaySrc)
  match userOverlay with
  | some overlay => mergeOverlay effective (setup.parseToml overlay)
  | none => effective

def swap (inUse : Base) (command : CatalogBaseChanged) : Base :=
  let effective := mergeCatalogLayers setup command.base command.userOverlay
  if effective.isEmpty then inUse else effective

def persists (command : CatalogBaseChanged) : Bool :=
  command.persist && !(mergeCatalogLayers setup command.base command.userOverlay).isEmpty

namespace State

variable (s : State Content)

/-- Writes the cache file, and then the etag. -/
def persistCatalogCache (command : CatalogBaseChanged) : Writes → State Content
  | .written => { s with bin := some command.base, storedEtag := command.etag }
  | .binFails => s
  | .etagFails => { s with bin := some command.base }

/-- The command loop takes the next command. -/
def handleCatalogBaseChanged (writes : Writes) : Option (State Content) :=
  match s.queue with
  | [] => none
  | command :: queue =>
    let s := { s with queue := queue, inUse := swap setup s.inUse command }
    some (if persists setup command then s.persistCatalogCache command writes else s)

/-- The start of the maintenance thread. The etag is only read with a cache file. -/
def start (loads reads : Bool) (overlay : Option (Option String)) : State Content :=
  let userOverlay := overlay.getD none
  let loaded : Base × Option String :=
    match if loads then s.bin else none with
    | some base => (base, if reads then getCatalogEtag s.storedEtag else none)
    | none => (setup.loadBundledBase, none)
  { s with
    base := loaded.1
    etag := loaded.2
    lastAppliedUserOverlay := userOverlay
    queue := [{
      base := loaded.1
      etag := loaded.2
      userOverlay := userOverlay
      persist := false }]
    inUse := setup.loadCatalog }

/-- The process dies after it wrote the cache file of the next command, and before the etag. -/
def dieMidWrite : Option (State Content) :=
  match s.queue with
  | [] => none
  | command :: _ =>
    if persists setup command then some { s with bin := some command.base } else none

end State

/-- The first start, with neither a cache file nor a stored etag. -/
def boot (content : Content) (overlay : Option (Option String)) : State Content :=
  State.start setup
    { current := content
      bin := none
      storedEtag := none
      base := []
      etag := none
      lastAppliedUserOverlay := none
      queue := []
      inUse := [] }
    true true overlay

def step [DecidableEq Content] : Label Content → State Content → Option (State Content)
  | .publish content, s => some { s with current := content }
  | .refresh force reply, s => some (s.runRefreshImpl (s.fetchModelsdev setup force reply))
  | .reloadUserOverlay read, s => some (s.reloadUserOverlay read)
  | .handle writes, s => s.handleCatalogBaseChanged setup writes
  | .restart midWrite loads reads overlay, s =>
    (if midWrite then s.dieMidWrite setup else some s).map fun s =>
      s.start setup loads reads overlay

/-- A step that writes a cache file without its etag finds no etag in the database, or already the
one that belongs to the file. -/
def KeepsEtag : Label Content → State Content → Prop
  | .handle .etagFails, s | .restart true _ _ _, s =>
    ∀ command ∈ s.queue.head?, persists setup command = true →
      s.storedEtag = none ∨ s.storedEtag = command.etag
  | _, _ => True

instance (label : Label Content) (s : State Content) : Decidable (KeepsEtag setup label s) :=
  match label with
  | .handle .etagFails | .restart true .. =>
    decidable_of_iff (∀ command ∈ s.queue.head?.toList, persists setup command = true →
      s.storedEtag = none ∨ s.storedEtag = command.etag) (by simp [KeepsEtag])
  | .handle .written | .handle .binFails | .restart false .. => isTrue trivial
  | .publish _ | .refresh .. | .reloadUserOverlay _ => isTrue trivial

/-! ### The layers -/

variable {setup} {base : Base}

theorem mergeOverlay_ne_nil (h : base ≠ []) (overlay : Option Toml) :
    mergeOverlay base overlay ≠ [] := by
  intro hnil
  have hprefix := prefix_mergeOverlay base overlay
  rw [hnil, map_nil, prefix_nil, map_eq_nil_iff] at hprefix
  exact h hprefix

theorem mergeCatalogLayers_ne_nil (h : base ≠ []) (userOverlay : Option String) :
    mergeCatalogLayers setup base userOverlay ≠ [] := by
  have hbundled := mergeOverlay_ne_nil h (setup.parseToml setup.bundledOverlaySrc)
  cases userOverlay with
  | none => exact hbundled
  | some overlay => exact mergeOverlay_ne_nil hbundled _

variable {command : CatalogBaseChanged}

theorem swap_of_ne_nil (h : command.base ≠ []) (inUse : Base) :
    swap setup inUse command = mergeCatalogLayers setup command.base command.userOverlay := by
  have heffective : mergeCatalogLayers setup command.base command.userOverlay ≠ [] :=
    mergeCatalogLayers_ne_nil h command.userOverlay
  rw [swap, if_neg]
  rwa [List.isEmpty_iff]

/-! ### The invariant -/

/-- An etag stands beside the normalisation of the content that it belongs to. -/
def Paired (setup : Setup Content) (base : Base) (etag : Option String) : Prop :=
  ∀ e, etag = some e →
    base ≠ [] ∧ ∃ content, e = setup.etagOf content ∧ base = setup.normalizeModelsdev content

/-- The catalog in use once the command loop has handled all commands on their way. -/
def State.settled (setup : Setup Content) (s : State Content) : Base :=
  s.queue.foldl (swap setup) s.inUse

/-- The base and the etag belong together in the thread, in the commands on their way and on the
disk, and the last command carries the base of the thread. -/
structure Invariant (setup : Setup Content) (s : State Content) : Prop where
  thread : Paired setup s.base s.etag
  queue : ∀ command ∈ s.queue, Paired setup command.base command.etag
  disk : ∀ base, s.bin = some base → Paired setup base s.storedEtag
  settled : s.base ≠ [] →
    s.settled setup = mergeCatalogLayers setup s.base s.lastAppliedUserOverlay

theorem Paired.none (base : Base) : Paired setup base none := by
  rintro e he
  cases he

theorem Paired.getCatalogEtag {stored : Option String}
    (h : Paired setup base stored) : Paired setup base (getCatalogEtag stored) := by
  intro e he
  obtain ⟨htrim, -⟩ := filter_eq_some_iff.1 he
  obtain ⟨raw, hraw, rfl⟩ := map_eq_some_iff.1 htrim
  obtain ⟨hbase, content, rfl, hnormal⟩ := h raw hraw
  exact ⟨hbase, content, setup.etagOf_trimmed content, hnormal⟩

theorem settled_concat (s : State Content)
    (h : command.base ≠ []) :
    (s.queue ++ [command]).foldl (swap setup) s.inUse =
      mergeCatalogLayers setup command.base command.userOverlay := by
  rw [foldl_append, foldl_cons, foldl_nil, swap_of_ne_nil h]

variable {s : State Content}

theorem paired_of_fetched [DecidableEq Content] {force withEtag : Bool}
    {etag : Option String}
    (h : s.answer setup force withEtag = .fetched base etag) (hbase : base ≠ []) :
    Paired setup base etag := by
  rw [State.answer] at h
  split_ifs at h with hmodified hetag
  · cases h
    intro e he
    exact ⟨hbase, s.current, (some.inj he).symm, rfl⟩
  · cases h
    exact Paired.none _

theorem Invariant.runRefreshImpl (h : Invariant setup s)
    {outcome : FetchOutcome}
    (hfetched : ∀ base etag, outcome = .fetched base etag → base ≠ [] → Paired setup base etag) :
    Invariant setup (s.runRefreshImpl outcome) := by
  cases outcome with
  | notModified | error => exact h
  | fetched base etag =>
    rw [State.runRefreshImpl]
    split_ifs with hempty
    · exact h
    · have hbase : base ≠ [] := fun hnil => hempty (List.isEmpty_iff.2 hnil)
      have hpaired := hfetched base etag rfl hbase
      refine ⟨hpaired, ?_, h.disk, fun _ => settled_concat s hbase⟩
      intro command hcommand
      rcases mem_append.1 hcommand with hmem | hmem
      · exact h.queue command hmem
      · obtain rfl := mem_singleton.1 hmem
        exact hpaired

theorem Invariant.reloadUserOverlay (h : Invariant setup s)
    (read : Option (Option String)) : Invariant setup (s.reloadUserOverlay read) := by
  cases read with
  | none => exact h
  | some contents =>
    rw [State.reloadUserOverlay]
    split_ifs
    · refine ⟨h.thread, ?_, h.disk, fun hbase => settled_concat s hbase⟩
      intro command hcommand
      rcases mem_append.1 hcommand with hmem | hmem
      · exact h.queue command hmem
      · obtain rfl := mem_singleton.1 hmem
        exact h.thread
    · exact h

theorem paired_of_keepsEtag {stored : Option String}
    (hpaired : Paired setup command.base command.etag)
    (hkeeps : stored = none ∨ stored = command.etag) : Paired setup command.base stored := by
  rcases hkeeps with rfl | rfl
  · exact Paired.none _
  · exact hpaired

theorem Invariant.handleCatalogBaseChanged {s s' : State Content} (h : Invariant setup s)
    {writes : Writes} (hkeeps : KeepsEtag setup (.handle writes) s)
    (hstep : s.handleCatalogBaseChanged setup writes = some s') : Invariant setup s' := by
  rw [State.handleCatalogBaseChanged] at hstep
  split at hstep
  · exact absurd hstep (by simp)
  · rename_i command queue hqueue
    cases hstep
    have hcommand := h.queue command (hqueue ▸ mem_cons_self)
    have hrest : ∀ c ∈ queue, Paired setup c.base c.etag := fun c hc =>
      h.queue c (hqueue ▸ mem_cons_of_mem _ hc)
    have hsettled : queue.foldl (swap setup) (swap setup s.inUse command) = s.settled setup := by
      rw [State.settled, hqueue, foldl_cons]
    have hkept := fun hbase => hsettled.trans (h.settled hbase)
    by_cases hpersists : persists setup command = true
    · rw [if_pos hpersists]
      cases writes with
      | written =>
        refine ⟨h.thread, hrest, ?_, hkept⟩
        rintro base hbase
        cases hbase
        exact hcommand
      | binFails => exact ⟨h.thread, hrest, h.disk, hkept⟩
      | etagFails =>
        refine ⟨h.thread, hrest, ?_, hkept⟩
        rintro base hbase
        cases hbase
        exact paired_of_keepsEtag hcommand (hkeeps command (by rw [hqueue]; rfl) hpersists)
    · rw [if_neg hpersists]
      exact ⟨h.thread, hrest, h.disk, hkept⟩

/-- A start reads a base and an etag that belong together, if the disk holds such. -/
theorem invariant_start
    (hdisk : ∀ base, s.bin = some base → Paired setup base s.storedEtag) (loads reads : Bool)
    (overlay : Option (Option String)) : Invariant setup (s.start setup loads reads overlay) := by
  have hpaired : Paired setup (s.start setup loads reads overlay).base
      (s.start setup loads reads overlay).etag := by
    rw [State.start]
    cases hbin : (if loads then s.bin else none) with
    | none => exact Paired.none _
    | some base =>
      have hbase : s.bin = some base := by
        cases loads with
        | false => exact absurd hbin (by simp)
        | true => exact hbin
      cases reads with
      | false => exact Paired.none _
      | true => exact (hdisk base hbase).getCatalogEtag
  refine ⟨hpaired, ?_, hdisk, fun hbase => ?_⟩
  · intro command hcommand
    obtain rfl := mem_singleton.1 hcommand
    exact hpaired
  · exact @swap_of_ne_nil _ setup ⟨_, _, _, false⟩ hbase _

theorem invariant_step [DecidableEq Content] {label : Label Content} {s s' : State Content}
    (hkeeps : KeepsEtag setup label s) (h : Invariant setup s)
    (hstep : step setup label s = some s') : Invariant setup s' := by
  cases label with
  | publish content =>
    cases hstep
    exact ⟨h.thread, h.queue, h.disk, h.settled⟩
  | refresh force reply =>
    cases hstep
    refine h.runRefreshImpl ?_
    intro base etag houtcome hbase
    cases reply with
    | answered withEtag => exact paired_of_fetched houtcome hbase
    | unreadable raw =>
      cases houtcome
      exact absurd rfl hbase
    | failed => cases houtcome
  | reloadUserOverlay read =>
    cases hstep
    exact h.reloadUserOverlay read
  | handle writes => exact h.handleCatalogBaseChanged hkeeps hstep
  | restart midWrite loads reads overlay =>
    obtain ⟨s₁, hdies, rfl⟩ := map_eq_some_iff.1 hstep
    refine invariant_start ?_ loads reads overlay
    cases midWrite with
    | false =>
      cases hdies
      exact h.disk
    | true =>
      rw [if_pos rfl, State.dieMidWrite] at hdies
      split at hdies
      · exact absurd hdies (by simp)
      · rename_i command queue hqueue
        split_ifs at hdies with hpersists
        cases hdies
        rintro base hbase
        cases hbase
        exact paired_of_keepsEtag (h.queue command (hqueue ▸ mem_cons_self))
          (hkeeps command (by rw [hqueue]; rfl) hpersists)

/-- In every run in which no step leaves another etag beside a new cache file, a refresh that is
answered 304 finds the normalisation of the current content of the server in the thread, and with
the overlays in use as soon as the commands on their way are handled. -/
theorem current_of_notModified [DecidableEq Content] {content : Content}
    {overlay : Option (Option String)} {labels : List (Label Content)} {s : State Content}
    (hrun : StepSystem.run (step setup) labels (boot setup content overlay) = some s)
    (hkeeps : StepSystem.Along (step setup) (KeepsEtag setup) labels (boot setup content overlay))
    {force withEtag : Bool} (h304 : s.answer setup force withEtag = .notModified) :
    s.base = setup.normalizeModelsdev s.current ∧
      s.settled setup = mergeCatalogLayers setup (setup.normalizeModelsdev s.current)
        s.lastAppliedUserOverlay := by
  have hboot : Invariant setup (boot setup content overlay) :=
    invariant_start (by rintro base hbase; cases hbase) true true overlay
  have hinv : Invariant setup s :=
    StepSystem.invariant_of_along (fun _ _ _ hG hI hstep => invariant_step hG hI hstep)
      hboot hkeeps hrun
  rw [State.answer] at h304
  split_ifs at h304 with hmodified
  have hetag : s.etag = some (setup.etagOf s.current) := by
    simp only [Bool.and_eq_true, decide_eq_true_eq] at hmodified
    exact hmodified.2
  obtain ⟨hbase, content', hsame, hnormal⟩ := hinv.thread _ hetag
  rw [← setup.etagOf_injective hsame] at hnormal
  exact ⟨hnormal, hnormal ▸ hinv.settled hbase⟩

/-! ### Runs -/

def twoContents : Setup Bool where
  etagOf content := if content then "\"new\"" else "\"old\""
  etagOf_injective := by
    intro a b h
    cases a <;> cases b <;> first | rfl | exact absurd h (by decide)
  etagOf_trimmed := by decide
  normalizeModelsdev content := [newProvider (if content then "new" else "old")]
  parseToml _ := none
  loadBundledBase := [newProvider "bundled"]
  loadCatalog := [newProvider "bundled"]
  bundledOverlaySrc := ""

/-- The old content everywhere. -/
def oldContent : State Bool where
  current := false
  bin := some [newProvider "old"]
  storedEtag := some "\"old\""
  base := [newProvider "old"]
  etag := some "\"old\""
  lastAppliedUserOverlay := none
  queue := []
  inUse := [newProvider "old"]

/-- The etag of the first fetch is not written, so that the content is fetched again after a restart.
A forced refresh fetches it once more, and the daemon stops between the two writes of that one. -/
def interrupted : List (Label Bool) :=
  [.handle .written, .refresh false (.answered true), .handle .etagFails,
    .restart false true true none, .handle .written, .refresh false (.answered true),
    .handle .written, .refresh true (.answered true), .restart true true true none,
    .handle .written]

theorem current_oldContent :
    StepSystem.run (step twoContents) interrupted (boot twoContents false none) =
        some oldContent ∧
      oldContent.answer twoContents false true = .notModified ∧
      oldContent.base = twoContents.normalizeModelsdev oldContent.current ∧
      oldContent.settled twoContents = mergeCatalogLayers twoContents
        (twoContents.normalizeModelsdev oldContent.current)
        oldContent.lastAppliedUserOverlay := by
  have hrun : StepSystem.run (step twoContents) interrupted (boot twoContents false none) =
      some oldContent := by decide
  have h304 : oldContent.answer twoContents false true = .notModified := by decide
  have hkeeps : StepSystem.Along (step twoContents) (KeepsEtag twoContents) interrupted
      (boot twoContents false none) := by decide
  exact ⟨hrun, h304, current_of_notModified hrun hkeeps h304⟩

/-- The content is fetched and written to the disk. -/
def fetchAndWrite : List (Label Bool) :=
  [.handle .written, .refresh false (.answered true), .handle .written]

/-- The next content is fetched and its etag write fails. After a restart the server is back at the
old content. -/
def lostEtag : List (Label Bool) :=
  fetchAndWrite ++ [.publish true, .refresh false (.answered true), .handle .etagFails,
    .restart false true true none, .publish false]

/-- The thread after the restart: the new base with the old etag. -/
def newBaseOldEtag : State Bool where
  current := false
  bin := some [newProvider "new"]
  storedEtag := some "\"old\""
  base := [newProvider "new"]
  etag := some "\"old\""
  lastAppliedUserOverlay := none
  queue := [⟨[newProvider "new"], some "\"old\"", none, false⟩]
  inUse := [newProvider "bundled"]

/-- The old etag beside the new cache file: the server answers 304, and the thread holds the
normalisation of a content that the server left. -/
theorem stale_lostEtag :
    ∃ s, StepSystem.run (step twoContents) lostEtag (boot twoContents false none) = some s ∧
      s.answer twoContents false true = .notModified ∧
      s.base ≠ twoContents.normalizeModelsdev s.current :=
  ⟨newBaseOldEtag, by decide, by decide, by decide⟩

end Choreo.Refresh
