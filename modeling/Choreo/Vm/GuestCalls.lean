import Choreo.Library.Postcard
import Choreo.Library.TreeMap
import Choreo.Proto

/-!
# Tool calls of a guest

A guest asks the host for a tool with the wrappers of the generated `choreo` module, whose source is
in `choreo-daemon/src/tools/vm.rs`. A wrapper writes the arguments by hand, in the postcard format.
The host reads the name of the tool and then the arguments as the type that the tool declares
(`execute_postcard` of `choreo-daemon/src/tools/mod.rs`). The types are kept apart, so each wrapper
has to write what its tool reads.

The wrapper of `grep` does not: its tool has three more fields, in the middle of the others.
-/

namespace Choreo

open List Option

open Postcard (Blob Seq)
open Postcard renaming Text → WireText

/-! ### Encoders of the guest -/

theorem toNat_shiftRight_seven (v : UInt64) : (v >>> 7).toNat = v.toNat / 128 := by
  rw [UInt64.toNat_shiftRight, Nat.shiftRight_eq_div_pow]
  rfl

/-- A number as a guest writes it. -/
def encVarint (v : UInt64) : Bytes :=
  if v < 0x80 then [v.toUInt8] else (v.toUInt8 ||| 0x80) :: encVarint (v >>> 7)
termination_by v.toNat
decreasing_by
  next h =>
    have hv : 128 ≤ v.toNat := Nat.le_of_not_lt fun hlt => h (UInt64.lt_iff_toNat_lt.2 hlt)
    rw [toNat_shiftRight_seven]
    omega

theorem or_highBit {n : ℕ} (hn : n < 256) : n ||| 128 = n % 128 + 128 := by
  have hlow (m : ℕ) (hm : m < 128) : m + 128 = 128 ||| m :=
    (Nat.add_comm m 128).trans (Nat.two_pow_add_eq_or_of_lt (i := 7) hm 1)
  rcases Nat.lt_or_ge n 128 with h | h
  · rw [Nat.mod_eq_of_lt h, hlow n h, Nat.or_comm]
  · have hsplit : n = 128 ||| (n - 128) := by
      rw [← hlow _ (by omega)]
      omega
    have hmod : n % 128 = n - 128 := by omega
    rw [hmod, hlow _ (by omega), ← hsplit, hsplit, Nat.or_comm, ← Nat.or_assoc, Nat.or_self]

/-- The numbers of the guest are those of the format. -/
theorem encVarint_eq (v : UInt64) : encVarint v = Protobuf.varint v.toNat := by
  induction hn : v.toNat using Nat.strongRecOn generalizing v with
  | ind n ih =>
    rw [encVarint, Protobuf.varint]
    have hlt : v < 0x80 ↔ n < 128 := by
      rw [UInt64.lt_iff_toNat_lt, hn]
      rfl
    by_cases h : n < 128
    · rw [if_pos (hlt.2 h), if_pos h, ← hn]
      rfl
    · have hbyte : v.toUInt8 ||| 0x80 = UInt8.ofNat (n % 128 + 128) := by
        rw [← UInt8.toNat_inj, UInt8.toNat_or, UInt64.toNat_toUInt8, hn,
          Protobuf.toNat_ofNat_of_lt (by omega)]
        refine (or_highBit (by omega)).trans ?_
        omega
      rw [if_neg (mt hlt.1 h), if_neg h, hbyte,
        ih (n / 128) (by omega) (v >>> 7) (by rw [toNat_shiftRight_seven, hn])]

/-- A text as a guest writes it. -/
def encStr (s : WireText) : Bytes := encVarint (UInt64.ofNat s.1.utf8ByteSize) ++ s.blob.1

def encBytes (b : Blob) : Bytes := encVarint (UInt64.ofNat b.1.length) ++ b.1

def encOptionStr : Option WireText → Bytes
  | some s => 0x01 :: encStr s
  | none => [0x00]

/-- An optional number as a guest writes it. -/
def encOptionU64 : Option UInt64 → Bytes
  | some n => 0x01 :: encVarint n
  | none => [0x00]

/-- A truth value as a guest writes it. -/
def encBool (v : Bool) : Bytes := [if v then 1 else 0]

/-- An optional truth value as a guest writes it. -/
def encOptionBool : Option Bool → Bytes
  | some b => [0x01, if b then 1 else 0]
  | none => [0x00]

section Encoders

open Postcard (str bytes bool u32 u64 option)

theorem encLength_eq {n : ℕ} (hn : n < 2 ^ 64) :
    encVarint (UInt64.ofNat n) = Protobuf.varint n := by
  rw [encVarint_eq, UInt64.toNat_ofNat_of_lt' hn]

theorem encStr_eq (s : WireText) : encStr s = str.write s := by
  have hlength : s.blob.1.length = s.1.utf8ByteSize := rfl
  rw [encStr, encLength_eq s.2, ← hlength]
  rfl

theorem encBytes_eq (b : Blob) : encBytes b = bytes.write b := by
  rw [encBytes, encLength_eq b.2]
  rfl

theorem encBool_eq (v : Bool) : encBool v = bool.write v := by rcases v <;> rfl

theorem encOptionStr_eq (s : Option WireText) : encOptionStr s = (option str).write s := by
  rcases s with _ | s
  · rfl
  · rw [encOptionStr, encStr_eq]
    rfl

theorem encOptionU64_eq (n : Option UInt64) : encOptionU64 n = (option u64).write n := by
  rcases n with _ | n
  · rfl
  · rw [encOptionU64, encVarint_eq]
    rfl

/-- A number of 32 bits is written as the same bytes. -/
theorem encOptionU64_map_eq (n : Option UInt32) :
    encOptionU64 (n.map UInt32.toUInt64) = (option u32).write n := by
  rcases n with _ | n
  · rfl
  · rw [map_some, encOptionU64, encVarint_eq, UInt32.toNat_toUInt64]
    rfl

theorem encOptionBool_eq (b : Option Bool) : encOptionBool b = (option bool).write b := by
  rcases b with _ | b
  · rfl
  · rcases b <;> rfl

end Encoders

/-! ### Wrappers -/

/-- The shells that `sh` can be asked for. -/
inductive Shell
  | bash
  | dash
  | zsh
deriving DecidableEq, Repr

def Shell.number : Shell → UInt32
  | .bash => 0
  | .dash => 1
  | .zsh => 2

inductive GuestCall
  | dbGet (key : WireText)
  | dbSet (key : WireText) (value : Blob)
  | dbDelete (key : WireText)
  | readFile (path : WireText)
  | writeFile (path content : WireText) (overwrite : Bool)
  | gitStatus
  | grep (pattern : WireText) (regex : Bool) (includeGlob path : Option WireText)
      (maxResults : Option UInt32)
  | find (pattern : WireText) (glob : Bool) (path : Option WireText) (maxResults : Option UInt32)
  | httpRequest (method url : WireText) (headers : Seq (WireText × WireText))
      (body : Option WireText) (timeoutSecs : Option UInt64)
  | sh (command : WireText) (shell : Shell) (workdir : Option WireText) (timeoutMs : Option UInt64)
  | exec (command : WireText) (cmdArgs : Seq WireText) (workdir : Option WireText)
      (timeoutMs : Option UInt64)

namespace GuestCall

/-- The tool that a wrapper names. -/
def tool : GuestCall → WireText
  | .dbGet .. => ⟨"db_get", by decide⟩
  | .dbSet .. => ⟨"db_set", by decide⟩
  | .dbDelete .. => ⟨"db_delete", by decide⟩
  | .readFile .. => ⟨"read_file", by decide⟩
  | .writeFile .. => ⟨"write_file", by decide⟩
  | .gitStatus => ⟨"git_status", by decide⟩
  | .grep .. => ⟨"grep", by decide⟩
  | .find .. => ⟨"find", by decide⟩
  | .httpRequest .. => ⟨"http_request", by decide⟩
  | .sh .. => ⟨"sh", by decide⟩
  | .exec .. => ⟨"exec", by decide⟩

/-- The arguments as a wrapper writes them. -/
def args : GuestCall → Bytes
  | .dbGet key => encStr key
  | .dbSet key value => encStr key ++ encBytes value
  | .dbDelete key => encStr key
  | .readFile path => encStr path
  | .writeFile path content overwrite =>
    encStr path ++ encStr content ++ encOptionBool (some overwrite) ++ encOptionBool (some true)
  | .gitStatus => [0x00]
  | .grep pattern regex includeGlob path maxResults =>
    encStr pattern ++ encBool regex ++ encOptionStr includeGlob ++ encOptionStr path ++
      encOptionU64 (maxResults.map UInt32.toUInt64)
  | .find pattern glob path maxResults =>
    encStr pattern ++ encBool glob ++ encOptionStr path ++
      encOptionU64 (maxResults.map UInt32.toUInt64)
  | .httpRequest method url headers body timeoutSecs =>
    encStr method ++ encStr url ++ encVarint (UInt64.ofNat headers.1.length) ++
      headers.1.flatMap (fun header => encStr header.1 ++ encStr header.2) ++ encOptionStr body ++
      encOptionU64 timeoutSecs
  | .sh command shell workdir timeoutMs =>
    encStr command ++ encVarint shell.number.toUInt64 ++ encOptionStr workdir ++
      encOptionU64 timeoutMs
  | .exec command cmdArgs workdir timeoutMs =>
    encStr command ++ encVarint (UInt64.ofNat cmdArgs.1.length) ++ cmdArgs.1.flatMap encStr ++
      encOptionStr workdir ++ encOptionU64 timeoutMs

/-- The bytes that are handed to the host: the name of the tool and the arguments. -/
def request (call : GuestCall) : Bytes := encStr call.tool ++ call.args

end GuestCall

/-! ### Arguments of the tools -/

structure DbGetArgs where
  key : WireText

structure DbSetArgs where
  key : WireText
  value : Blob

structure DbDeleteArgs where
  key : WireText

structure ReadFileArgs where
  path : WireText

structure WriteFileArgs where
  path : WireText
  content : WireText
  overwrite : Option Bool
  createParents : Option Bool

/-- The arguments of `git_status`. -/
structure GitRepoArgs where
  repoPath : Option WireText

/-- How `grep` shows what it found. -/
inductive GrepOutputMode
  | content
  | filesWithMatches
  | count
deriving DecidableEq, Repr

structure GrepArgs where
  pattern : WireText
  regex : Bool
  ignoreCase : Bool
  context : UInt32
  outputMode : GrepOutputMode
  includeGlob : Option WireText
  path : Option WireText
  maxResults : Option UInt32

structure FindArgs where
  pattern : WireText
  glob : Bool
  path : Option WireText
  maxResults : Option UInt32

/-- The arguments of `http_request`, with the headers as they are on the wire. -/
structure HttpRequestWire where
  method : WireText
  url : WireText
  headers : Seq (WireText × WireText)
  body : Option WireText
  timeoutSecs : Option UInt64

structure HttpRequestArgs where
  method : WireText
  url : WireText
  headers : Std.ExtTreeMap String String
  body : Option WireText
  timeoutSecs : Option UInt64

structure ShArgs where
  command : WireText
  shell : Shell
  workdir : Option WireText
  timeout : Option UInt64

structure ExecArgs where
  command : WireText
  args : Seq WireText
  workdir : Option WireText
  timeout : Option UInt64

section Formats

open Postcard (Format str bytes bool u32 u64 option seq enum)

def DbGetArgs.format : Format DbGetArgs := str.record (⟨·⟩) (·.key) fun _ => rfl

def DbSetArgs.format : Format DbSetArgs :=
  (str.pair bytes).record (fun a => ⟨a.1, a.2⟩) (fun a => (a.key, a.value)) fun _ => rfl

def DbDeleteArgs.format : Format DbDeleteArgs := str.record (⟨·⟩) (·.key) fun _ => rfl

def ReadFileArgs.format : Format ReadFileArgs := str.record (⟨·⟩) (·.path) fun _ => rfl

def WriteFileArgs.format : Format WriteFileArgs :=
  (str.pair (str.pair ((option bool).pair (option bool)))).record
    (fun a => ⟨a.1, a.2.1, a.2.2.1, a.2.2.2⟩)
    (fun a => (a.path, a.content, a.overwrite, a.createParents)) fun _ => rfl

def GitRepoArgs.format : Format GitRepoArgs := (option str).record (⟨·⟩) (·.repoPath) fun _ => rfl

def GrepOutputMode.number : GrepOutputMode → UInt32
  | .content => 0
  | .filesWithMatches => 1
  | .count => 2

def GrepOutputMode.ofNumber (n : UInt32) : Option GrepOutputMode :=
  if n = 0 then some .content else if n = 1 then some .filesWithMatches
  else if n = 2 then some .count else none

def GrepOutputMode.format : Format GrepOutputMode :=
  enum number ofNumber fun mode => by rcases mode with _ | _ | _ <;> rfl

def GrepArgs.format : Format GrepArgs :=
  (str.pair (bool.pair (bool.pair (u32.pair (GrepOutputMode.format.pair ((option str).pair
    ((option str).pair (option u32)))))))).record
    (fun a => ⟨a.1, a.2.1, a.2.2.1, a.2.2.2.1, a.2.2.2.2.1, a.2.2.2.2.2.1, a.2.2.2.2.2.2.1,
      a.2.2.2.2.2.2.2⟩)
    (fun a => (a.pattern, a.regex, a.ignoreCase, a.context, a.outputMode, a.includeGlob, a.path,
      a.maxResults)) fun _ => rfl

def FindArgs.format : Format FindArgs :=
  (str.pair (bool.pair ((option str).pair (option u32)))).record
    (fun a => ⟨a.1, a.2.1, a.2.2.1, a.2.2.2⟩)
    (fun a => (a.pattern, a.glob, a.path, a.maxResults)) fun _ => rfl

def HttpRequestWire.format : Format HttpRequestWire :=
  (str.pair (str.pair ((seq (str.pair str)).pair ((option str).pair (option u64))))).record
    (fun a => ⟨a.1, a.2.1, a.2.2.1, a.2.2.2.1, a.2.2.2.2⟩)
    (fun a => (a.method, a.url, a.headers, a.body, a.timeoutSecs)) fun _ => rfl

def Shell.ofNumber (n : UInt32) : Option Shell :=
  if n = 0 then some .bash else if n = 1 then some .dash else if n = 2 then some .zsh else none

def Shell.format : Format Shell :=
  enum number ofNumber fun shell => by rcases shell with _ | _ | _ <;> rfl

def ShArgs.format : Format ShArgs :=
  (str.pair (Shell.format.pair ((option str).pair (option u64)))).record
    (fun a => ⟨a.1, a.2.1, a.2.2.1, a.2.2.2⟩)
    (fun a => (a.command, a.shell, a.workdir, a.timeout)) fun _ => rfl

def ExecArgs.format : Format ExecArgs :=
  (str.pair ((seq str).pair ((option str).pair (option u64)))).record
    (fun a => ⟨a.1, a.2.1, a.2.2.1, a.2.2.2⟩)
    (fun a => (a.command, a.args, a.workdir, a.timeout)) fun _ => rfl

end Formats

/-- The headers as a map: of two with one name, the later one counts. -/
def headerMap (headers : List (WireText × WireText)) : Std.ExtTreeMap String String :=
  headers.foldl (fun map header => map.insert header.1.1 header.2.1) ∅

def HttpRequestWire.toArgs (wire : HttpRequestWire) : HttpRequestArgs where
  method := wire.method
  url := wire.url
  headers := headerMap wire.headers.1
  body := wire.body
  timeoutSecs := wire.timeoutSecs

/-- The arguments that a tool is executed with. -/
inductive HostArgs
  | dbGet (args : DbGetArgs)
  | dbSet (args : DbSetArgs)
  | dbDelete (args : DbDeleteArgs)
  | readFile (args : ReadFileArgs)
  | writeFile (args : WriteFileArgs)
  | gitStatus (args : GitRepoArgs)
  | grep (args : GrepArgs)
  | find (args : FindArgs)
  | httpRequest (args : HttpRequestArgs)
  | sh (args : ShArgs)
  | exec (args : ExecArgs)

namespace HostArgs

def read (tool : String) (stream : Bytes) : Option (HostArgs × Bytes) :=
  match tool with
  | "db_get" => (DbGetArgs.format.read stream).map fun read => (.dbGet read.1, read.2)
  | "db_set" => (DbSetArgs.format.read stream).map fun read => (.dbSet read.1, read.2)
  | "db_delete" => (DbDeleteArgs.format.read stream).map fun read => (.dbDelete read.1, read.2)
  | "read_file" => (ReadFileArgs.format.read stream).map fun read => (.readFile read.1, read.2)
  | "write_file" => (WriteFileArgs.format.read stream).map fun read => (.writeFile read.1, read.2)
  | "git_status" => (GitRepoArgs.format.read stream).map fun read => (.gitStatus read.1, read.2)
  | "grep" => (GrepArgs.format.read stream).map fun read => (.grep read.1, read.2)
  | "find" => (FindArgs.format.read stream).map fun read => (.find read.1, read.2)
  | "http_request" =>
    (HttpRequestWire.format.read stream).map fun read => (.httpRequest read.1.toArgs, read.2)
  | "sh" => (ShArgs.format.read stream).map fun read => (.sh read.1, read.2)
  | "exec" => (ExecArgs.format.read stream).map fun read => (.exec read.1, read.2)
  | _ => none

def readRequest (request : Bytes) : Option (HostArgs × Bytes) :=
  (Postcard.str.read request).bind fun named => read named.1.1 named.2

end HostArgs

/-! ### Delivery -/

namespace GuestCall

/-- The arguments have the values of the call, and every field that the wrapper has no parameter for
has its documented default. -/
def Asks : GuestCall → HostArgs → Prop
  | .dbGet key, .dbGet args => args = ⟨key⟩
  | .dbSet key value, .dbSet args => args = ⟨key, value⟩
  | .dbDelete key, .dbDelete args => args = ⟨key⟩
  | .readFile path, .readFile args => args = ⟨path⟩
  | .writeFile path content overwrite, .writeFile args =>
    args = ⟨path, content, some overwrite, some true⟩
  | .gitStatus, .gitStatus args => args = ⟨none⟩
  | .grep pattern regex includeGlob path maxResults, .grep args =>
    args = ⟨pattern, regex, false, 0, .content, includeGlob, path, maxResults⟩
  | .find pattern glob path maxResults, .find args => args = ⟨pattern, glob, path, maxResults⟩
  | .httpRequest method url headers body timeoutSecs, .httpRequest args =>
    args.method = method ∧ args.url = url ∧ args.body = body ∧ args.timeoutSecs = timeoutSecs ∧
      ∀ name value, args.headers[name]? = some value ↔
        ∃ header ∈ headers.1, header.1.1 = name ∧ header.2.1 = value
  | .sh command shell workdir timeoutMs, .sh args => args = ⟨command, shell, workdir, timeoutMs⟩
  | .exec command cmdArgs workdir timeoutMs, .exec args =>
    args = ⟨command, cmdArgs, workdir, timeoutMs⟩
  | _, _ => False

def Delivered (call : GuestCall) : Prop :=
  ∃ args, HostArgs.readRequest call.request = some (args, []) ∧ call.Asks args

/-- No two headers of the call have one name. -/
def DistinctHeaders : GuestCall → Prop
  | .httpRequest _ _ headers _ _ => (headers.1.map fun header => header.1.1).Nodup
  | _ => True

end GuestCall

theorem headerMap_get {headers : List (WireText × WireText)}
    (hdistinct : (headers.map fun header => header.1.1).Nodup) (name value : String) :
    (headerMap headers)[name]? = some value ↔
      ∃ header ∈ headers, header.1.1 = name ∧ header.2.1 = value := by
  have hfold (map : Std.ExtTreeMap String String) :
      (headers.foldl (fun map header => map.insert header.1.1 header.2.1) map)[name]? =
          some value ↔
        (∃ header ∈ headers, header.1.1 = name ∧ header.2.1 = value) ∨
          name ∉ headers.map (fun header => header.1.1) ∧ map[name]? = some value := by
    induction headers generalizing map with
    | nil => simp
    | cons header headers ih =>
      obtain ⟨hnew, hdistinct⟩ := nodup_cons.1 hdistinct
      rw [foldl_cons, ih hdistinct, Std.ExtTreeMap.get_insert]
      by_cases hname : name = header.1.1
      · subst hname
        have habsent : ¬ ∃ other ∈ headers, other.1.1 = header.1.1 ∧ other.2.1 = value := by
          rintro ⟨other, hmem, heq, -⟩
          exact hnew (List.mem_map.2 ⟨other, hmem, heq⟩)
        rw [if_pos rfl]
        constructor
        · rintro (h | ⟨-, h⟩)
          · exact absurd h habsent
          · exact .inl ⟨header, mem_cons_self, rfl, some.inj h⟩
        · rintro (⟨other, hmem, heq, hvalue⟩ | ⟨h, -⟩)
          · rcases mem_cons.1 hmem with rfl | hmem
            · exact .inr ⟨hnew, congrArg some hvalue⟩
            · exact absurd ⟨other, hmem, heq, hvalue⟩ habsent
          · exact absurd mem_cons_self h
      · rw [if_neg hname]
        simp [hname, Ne.symm hname]
  rw [headerMap, hfold]
  simp

namespace GuestCall

theorem readRequest_request (call : GuestCall) :
    HostArgs.readRequest call.request = HostArgs.read call.tool.1 call.args := by
  rw [HostArgs.readRequest, request, encStr_eq, Postcard.str.read_write, bind_some]

theorem delivered_of_args {call : GuestCall} {α : Type} (F : Postcard.Format α)
    (make : α → HostArgs) (a : α)
    (hread : ∀ stream, HostArgs.read call.tool.1 stream =
      (F.read stream).map fun read => (make read.1, read.2))
    (hargs : call.args = F.write a) (hasks : call.Asks (make a)) : call.Delivered := by
  refine ⟨make a, ?_, hasks⟩
  rw [readRequest_request, hread, hargs, F.read_write_nil, map_some]

/-- The arguments of every other wrapper are read as what was asked for. -/
theorem delivered_of_ne_grep {call : GuestCall} (hdistinct : call.DistinctHeaders)
    (hgrep : call.tool.1 ≠ "grep") : call.Delivered := by
  rcases call with key | ⟨key, value⟩ | key | path | ⟨path, content, overwrite⟩ | _ |
    ⟨pattern, regex, includeGlob, path, maxResults⟩ | ⟨pattern, glob, path, maxResults⟩ |
    ⟨method, url, headers, body, timeoutSecs⟩ | ⟨command, shell, workdir, timeoutMs⟩ |
    ⟨command, cmdArgs, workdir, timeoutMs⟩
  · refine delivered_of_args DbGetArgs.format .dbGet ⟨key⟩ (fun _ => rfl) ?_ rfl
    rw [args, encStr_eq]
    rfl
  · refine delivered_of_args DbSetArgs.format .dbSet ⟨key, value⟩ (fun _ => rfl) ?_ rfl
    rw [args, encStr_eq, encBytes_eq]
    rfl
  · refine delivered_of_args DbDeleteArgs.format .dbDelete ⟨key⟩ (fun _ => rfl) ?_ rfl
    rw [args, encStr_eq]
    rfl
  · refine delivered_of_args ReadFileArgs.format .readFile ⟨path⟩ (fun _ => rfl) ?_ rfl
    rw [args, encStr_eq]
    rfl
  · refine delivered_of_args WriteFileArgs.format .writeFile
      ⟨path, content, some overwrite, some true⟩ (fun _ => rfl) ?_ rfl
    rw [args, encStr_eq, encStr_eq, encOptionBool_eq, encOptionBool_eq, append_assoc,
      append_assoc]
    rfl
  · exact delivered_of_args GitRepoArgs.format .gitStatus ⟨none⟩ (fun _ => rfl) rfl rfl
  · exact absurd rfl hgrep
  · refine delivered_of_args FindArgs.format .find ⟨pattern, glob, path, maxResults⟩
      (fun _ => rfl) ?_ rfl
    rw [args, encStr_eq, encBool_eq, encOptionStr_eq, encOptionU64_map_eq, append_assoc,
      append_assoc]
    rfl
  · refine delivered_of_args HttpRequestWire.format (.httpRequest ·.toArgs)
      ⟨method, url, headers, body, timeoutSecs⟩ (fun _ => rfl) ?_
      ⟨rfl, rfl, rfl, rfl, headerMap_get hdistinct⟩
    have hheaders : (fun header : WireText × WireText => encStr header.1 ++ encStr header.2) =
        (Postcard.str.pair Postcard.str).write := by
      funext header
      rw [encStr_eq, encStr_eq]
      rfl
    have hseq : Protobuf.varint headers.1.length ++
        headers.1.flatMap (Postcard.str.pair Postcard.str).write =
        (Postcard.seq (Postcard.str.pair Postcard.str)).write headers := rfl
    rw [args, encStr_eq, encStr_eq, encLength_eq headers.2, hheaders, encOptionStr_eq,
      encOptionU64_eq, append_assoc (_ ++ _) (Protobuf.varint _), hseq]
    simp only [append_assoc]
    rfl
  · refine delivered_of_args ShArgs.format .sh ⟨command, shell, workdir, timeoutMs⟩
      (fun _ => rfl) ?_ rfl
    rw [args, encStr_eq, encVarint_eq, UInt32.toNat_toUInt64, encOptionStr_eq, encOptionU64_eq,
      append_assoc, append_assoc]
    rfl
  · refine delivered_of_args ExecArgs.format .exec ⟨command, cmdArgs, workdir, timeoutMs⟩
      (fun _ => rfl) ?_ rfl
    have hargs : encStr = Postcard.str.write := funext encStr_eq
    have hseq : Protobuf.varint cmdArgs.1.length ++ cmdArgs.1.flatMap Postcard.str.write =
        (Postcard.seq Postcard.str).write cmdArgs := rfl
    rw [args, hargs, encLength_eq cmdArgs.2, encOptionStr_eq, encOptionU64_eq,
      append_assoc (Postcard.str.write command) (Protobuf.varint _), hseq]
    simp only [append_assoc]
    rfl

/-- No call of `grep` is delivered: the bytes for the absent fields are taken from the ones after
them, and in the end bytes are missing. -/
theorem not_delivered_grep (pattern : WireText) (regex : Bool) (includeGlob path : Option WireText)
    (maxResults : Option UInt32) :
    ¬ (grep pattern regex includeGlob path maxResults).Delivered := by
  rintro ⟨hostArgs, hread, hasks⟩
  rw [readRequest_request] at hread
  obtain ⟨⟨grepArgs, rest⟩, hgrep, heq⟩ := map_eq_some_iff.1 hread
  obtain ⟨rfl, rfl⟩ := Prod.mk.inj heq
  obtain ⟨⟨fields, rest⟩, hfields, heq⟩ := map_eq_some_iff.1 hgrep
  obtain ⟨rfl, rfl⟩ := Prod.mk.inj heq
  simp only [Asks, GrepArgs.mk.injEq] at hasks
  obtain ⟨-, -, hcase, hcontext, hmode, -, -, -⟩ := hasks
  rw [args, encStr_eq, encBool_eq, encOptionStr_eq, encOptionStr_eq, encOptionU64_map_eq,
    append_assoc, append_assoc, append_assoc] at hfields
  obtain ⟨stream, hread, hfields⟩ := (Postcard.Format.pair_read_eq_some _ _).1 hfields
  obtain rfl := (Prod.mk.inj (some.inj (hread.symm.trans (Postcard.str.read_write _ _)))).2
  obtain ⟨stream, hread, hfields⟩ := (Postcard.Format.pair_read_eq_some _ _).1 hfields
  obtain rfl := (Prod.mk.inj (some.inj (hread.symm.trans (Postcard.bool.read_write _ _)))).2
  obtain ⟨stream, hread, hfields⟩ := (Postcard.Format.pair_read_eq_some _ _).1 hfields
  rcases includeGlob with _ | includeGlob
  swap
  · have htrue := (Prod.mk.inj (some.inj hread)).1
    exact absurd (htrue.trans hcase) (by decide)
  obtain rfl := (Prod.mk.inj (some.inj hread)).2
  obtain ⟨stream, hread, hfields⟩ := (Postcard.Format.pair_read_eq_some _ _).1 hfields
  rcases path with _ | path
  swap
  · have hone := (Prod.mk.inj (some.inj
      ((Postcard.u32_read_cons (by decide) _).symm.trans hread))).1
    exact absurd (hone.trans hcontext) (by decide)
  obtain rfl := (Prod.mk.inj (some.inj
    ((Postcard.u32_read_cons (by decide) _).symm.trans hread))).2
  obtain ⟨stream, hread, hfields⟩ := (Postcard.Format.pair_read_eq_some _ _).1 hfields
  obtain ⟨⟨number, rest⟩, hnumber, hread⟩ := bind_eq_some_iff.1 hread
  obtain ⟨mode, hmode', heq⟩ := map_eq_some_iff.1 hread
  obtain ⟨rfl, rfl⟩ := Prod.mk.inj heq
  rcases maxResults with _ | maxResults
  swap
  · obtain ⟨rfl, rfl⟩ := Prod.mk.inj (some.inj
      ((Postcard.u32_read_cons (by decide) _).symm.trans hnumber))
    have hfiles : GrepOutputMode.ofNumber 1 = some .content := hmode'.trans (congrArg some hmode)
    exact absurd hfiles (by decide)
  obtain ⟨rfl, rfl⟩ := Prod.mk.inj (some.inj
    ((Postcard.u32_read_cons (by decide) _).symm.trans hnumber))
  obtain ⟨stream, hread, -⟩ := (Postcard.Format.pair_read_eq_some _ _).1 hfields
  exact absurd hread (by simp [Postcard.option])

/-- For all values and all wrappers, the host reads a call to its end as what was asked for if and
only if it is not a call of `grep`. -/
theorem delivered_iff (call : GuestCall) (hdistinct : call.DistinctHeaders) :
    call.Delivered ↔ call.tool.1 ≠ "grep" := by
  refine ⟨fun hdelivered hgrep => ?_, delivered_of_ne_grep hdistinct⟩
  rcases call with _ | _ | _ | _ | _ | _ |
    ⟨pattern, regex, includeGlob, path, maxResults⟩ | _ | _ | _ | _
  pick_goal 7
  · exact not_delivered_grep pattern regex includeGlob path maxResults hdelivered
  all_goals exact absurd hgrep (by simp [tool])

/-- A request with one header. -/
def sampleGet : GuestCall :=
  httpRequest ⟨"GET", by decide⟩ ⟨"https://example.org/", by decide⟩
    ⟨[(⟨"accept", by decide⟩, ⟨"text/plain", by decide⟩)], by decide⟩ none (some 5)

theorem delivered_sampleGet : sampleGet.Delivered ↔ sampleGet.tool.1 ≠ "grep" :=
  delivered_iff sampleGet (nodup_singleton _)

/-- A search for a word in all files is not delivered. -/
theorem not_delivered_sampleGrep :
    ¬ ∀ call : GuestCall, call.DistinctHeaders → call.Delivered := fun h =>
  not_delivered_grep ⟨"TODO", by decide⟩ false none none none (h _ trivial)

end GuestCall

end Choreo
